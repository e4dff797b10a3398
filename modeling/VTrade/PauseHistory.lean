/-
# The history of pauses

A request and an alert log what they do to a target from the state that they meet, so that the log
of a target links up and leads to its state.  The key of an action is used once: a request under a
key of the log changes nothing, and an alert pauses at most once for its row.
-/

import VTrade.PauseControls
import VTrade.Lib.AuditLog

namespace VTrade

namespace ControlTables

variable {print : Instant → String} {ids : RandomIds} {tables after : ControlTables}

/-! ## The fields of a pause -/

/-- The fields of a logged state that say whether its target is paused. -/
def loggedFields : ControlTarget → JsonObject → List (Option Json)
  | .system, state => [Json.get state "globally_paused", Json.get state "version"]
  | .agent _, state => [Json.get state "paused_at"]

/-- The same fields of the tables. -/
def pauseFields (print : Instant → String) (tables : ControlTables) :
    ControlTarget → Option (List (Option Json))
  | .system => tables.controls.map fun row =>
      [some (.bool row.globallyPaused), some (.int row.version)]
  | .agent agentId => (tables.agent? agentId).map fun row =>
      [some (optionalText print row.pausedAt)]

/-- A target is paused. -/
def IsPaused (tables : ControlTables) : ControlTarget → Prop
  | .system => ∃ row, tables.controls = some row ∧ row.globallyPaused = true
  | .agent agentId => ∃ row, tables.agent? agentId = some row ∧ row.pausedAt.isSome = true

/-- The actions on a target, the latest last. -/
def actionsOn (tables : ControlTables) (target : ControlTarget) : List OperatorAction :=
  AuditLog.entriesOn OperatorAction.target tables.actions target

def fieldsBefore (action : OperatorAction) : Option (List (Option Json)) :=
  some (loggedFields action.target action.beforeState)

def fieldsAfter (action : OperatorAction) : Option (List (Option Json)) :=
  some (loggedFields action.target action.afterState)

/-- An action that an alert's row has caused. -/
def causedBy (alertId : String) (action : OperatorAction) : Bool :=
  (Json.get action.afterState "alert_id").any (Json.isText alertId)

/-! ## What a call does -/

/-- The same pauses and the same log. -/
structure SamePauses (tables after : ControlTables) : Prop where
  controls : after.controls = tables.controls
  agents : after.agents = tables.agents
  actions : after.actions = tables.actions

theorem SamePauses.refl (tables : ControlTables) : SamePauses tables tables := ⟨rfl, rfl, rfl⟩

theorem SamePauses.pauseFields_eq (h : SamePauses tables after) (target : ControlTarget) :
    after.pauseFields print target = tables.pauseFields print target := by
  cases target with
  | system => rw [pauseFields, h.controls, pauseFields]
  | agent agentId => rw [pauseFields, agent?, h.agents, pauseFields, agent?]

theorem SamePauses.isPaused (h : SamePauses tables after) {target : ControlTarget}
    (hpaused : tables.IsPaused target) : after.IsPaused target := by
  cases target with
  | system =>
      obtain ⟨row, hrow, hflag⟩ := hpaused
      exact ⟨row, h.controls.trans hrow, hflag⟩
  | agent agentId =>
      obtain ⟨row, hrow, hflag⟩ := hpaused
      refine ⟨row, ?_, hflag⟩
      rw [agent?, h.agents]
      exact hrow

/-- An action is logged with the change of its target. -/
structure Logs (print : Instant → String) (tables : ControlTables) (action : OperatorAction)
    (after : ControlTables) : Prop where
  actions : after.actions = tables.actions ++ [action]
  fresh : tables.actionOf? action.idempotencyKey = none
  before : tables.pauseFields print action.target = fieldsBefore action
  afterwards : after.pauseFields print action.target = fieldsAfter action
  others : ∀ target, target ≠ action.target →
    after.pauseFields print target = tables.pauseFields print target
  origin : ∀ alertId, causedBy alertId action = true →
    action.idempotencyKey = automaticPauseKey alertId

theorem pauseFields_setControls (row : SystemControls) (target : ControlTarget) :
    (tables.setControls row).pauseFields print target =
      if target = .system then some [some (.bool row.globallyPaused), some (.int row.version)]
      else tables.pauseFields print target := by
  cases target with
  | system => rfl
  | agent agentId => rfl

theorem agent?_setAgent (row : AgentPause) (agentId : String) :
    (tables.setAgent row).agent? agentId =
      if agentId = row.id then some row else tables.agent? agentId := by
  unfold agent? setAgent
  by_cases hid : agentId = row.id
  · rw [if_pos hid, hid]
    exact KeyedList.lookup_upsert_self row tables.agents
  · rw [if_neg hid]
    exact KeyedList.lookup_upsert_of_ne hid tables.agents

theorem pauseFields_setAgent (row : AgentPause) (target : ControlTarget) :
    (tables.setAgent row).pauseFields print target =
      if target = .agent row.id then some [some (optionalText print row.pausedAt)]
      else tables.pauseFields print target := by
  cases target with
  | system => rfl
  | agent agentId =>
      rw [pauseFields, agent?_setAgent]
      by_cases hid : agentId = row.id
      · rw [if_pos hid, if_pos (congrArg ControlTarget.agent hid), Option.map_some]
      · rw [if_neg hid, if_neg (fun h => hid (ControlTarget.agent.inj h))]
        rfl

theorem pauseFields_log (action : OperatorAction) (target : ControlTarget) :
    (tables.log action).pauseFields print target = tables.pauseFields print target := by
  cases target with
  | system => rfl
  | agent agentId => rfl

/-- A change of the system that is logged. -/
theorem logs_system {row changed : SystemControls} {action : OperatorAction} {origin : JsonObject}
    (hrow : tables.controls = some row) (hfresh : tables.actionOf? action.idempotencyKey = none)
    (htarget : action.target = .system) (hbefore : action.beforeState = systemState print row)
    (hafter : action.afterState = systemState print changed ++ origin)
    (horigin : ∀ alertId, causedBy alertId action = true →
      action.idempotencyKey = automaticPauseKey alertId) :
    Logs print tables action ((tables.setControls changed).log action) := by
  have hchanged (target : ControlTarget) :
      ((tables.setControls changed).log action).pauseFields print target =
        if target = .system then
          some [some (.bool changed.globallyPaused), some (.int changed.version)]
        else tables.pauseFields print target := by
    rw [pauseFields_log, pauseFields_setControls]
  refine ⟨rfl, hfresh, ?_, ?_, ?_, horigin⟩
  · rw [fieldsBefore, htarget, hbefore, pauseFields, hrow]
    rfl
  · rw [fieldsAfter, htarget, hafter, hchanged, if_pos rfl]
    rfl
  · intro target hother
    rw [htarget] at hother
    rw [hchanged, if_neg hother]

/-- A change of an agent that is logged. -/
theorem logs_agent {row changed : AgentPause} {agentId : String} {action : OperatorAction}
    {origin : JsonObject} (hrow : tables.agent? agentId = some row) (hid : changed.id = row.id)
    (hfresh : tables.actionOf? action.idempotencyKey = none)
    (htarget : action.target = .agent agentId)
    (hbefore : action.beforeState = agentState print row)
    (hafter : action.afterState = agentState print changed ++ origin)
    (horigin : ∀ alertId, causedBy alertId action = true →
      action.idempotencyKey = automaticPauseKey alertId) :
    Logs print tables action ((tables.setAgent changed).log action) := by
  have hagent : row.id = agentId := KeyedList.key_of_lookup_eq_some hrow
  have hchanged (target : ControlTarget) :
      ((tables.setAgent changed).log action).pauseFields print target =
        if target = .agent agentId then some [some (optionalText print changed.pausedAt)]
        else tables.pauseFields print target := by
    rw [pauseFields_log, pauseFields_setAgent, hid, hagent]
  refine ⟨rfl, hfresh, ?_, ?_, ?_, horigin⟩
  · rw [fieldsBefore, htarget, hbefore, pauseFields, hrow]
    rfl
  · rw [fieldsAfter, htarget, hafter, hchanged, if_pos rfl]
    rfl
  · intro target hother
    rw [htarget] at hother
    rw [hchanged, if_neg hother]

/-- A request that is not refused is logged under its key, or has been. -/
theorem control_logs {request : ControlRequest} {state : JsonObject}
    (h : tables.control print request = .ok (after, state)) :
    after = tables ∨ ∃ action, Logs print tables action after := by
  unfold control at h
  obtain ⟨_, -, h⟩ := Checks.bind_eq_ok.mp h
  obtain ⟨moment, -, h⟩ := Checks.bind_eq_ok.mp h
  cases hexisting : tables.actionOf? request.idempotencyKey with
  | some existing =>
      rw [hexisting] at h
      obtain ⟨-, h⟩ := Checks.ite_error_eq_ok.mp h
      cases h
      exact .inl rfl
  | none =>
      rw [hexisting] at h
      right
      unfold controlTarget at h
      dsimp only at h
      cases htarget : request.target with
      | system =>
          rw [htarget] at h
          cases hrow : tables.controls with
          | none => rw [hrow] at h; cases h
          | some row =>
              rw [hrow] at h
              obtain ⟨-, h⟩ := Checks.ite_error_eq_ok.mp h
              cases h
              exact ⟨_, logs_system hrow hexisting rfl rfl (List.append_nil _).symm nofun⟩
      | agent agentId =>
          rw [htarget] at h
          dsimp only at h
          cases hrow : tables.agent? agentId with
          | none => rw [hrow] at h; cases h
          | some row =>
              rw [hrow] at h
              cases h
              exact ⟨_, logs_agent hrow rfl hexisting rfl rfl (List.append_nil _).symm nofun⟩

/-- An automatic pause that is not refused is logged under the key of its row, or has been. -/
theorem pauseTarget_logs {alert : AlertEvent} {alertId : String} {scope : AlertPauseScope}
    {target : ControlTarget}
    (h : tables.pauseTarget print alert alertId scope target = .ok after) :
    after = tables ∨ ∃ action, Logs print tables action after := by
  have horigin (state : JsonObject) (hstate : Json.get state "alert_id" = none)
      (found : String) (action : OperatorAction)
      (hafter : action.afterState = state ++ pauseOrigin alert alertId scope)
      (hkey : action.idempotencyKey = automaticPauseKey alertId)
      (hcaused : causedBy found action = true) :
      action.idempotencyKey = automaticPauseKey found := by
    have hget : Json.get action.afterState "alert_id" = some (.text alertId) := by
      unfold Json.get at hstate ⊢
      rw [hafter, List.lookup_append, hstate]
      rfl
    unfold causedBy at hcaused
    rw [hget, Option.any_some, Json.isText_iff] at hcaused
    cases hcaused
    exact hkey
  unfold pauseTarget at h
  dsimp only at h
  cases hexisting : tables.actionOf? (automaticPauseKey alertId) with
  | some existing =>
      rw [hexisting] at h
      obtain ⟨-, h⟩ := Checks.ite_error_eq_ok.mp h
      cases h
      exact .inl rfl
  | none =>
      rw [hexisting] at h
      right
      cases target with
      | system =>
          dsimp only at h
          cases hrow : tables.controls with
          | none => rw [hrow] at h; cases h
          | some row =>
              rw [hrow] at h
              obtain ⟨-, h⟩ := Checks.ite_error_eq_ok.mp h
              cases h
              exact ⟨_, logs_system hrow hexisting rfl rfl rfl fun found hcaused =>
                horigin _ rfl found _ rfl rfl hcaused⟩
      | agent agentId =>
          dsimp only at h
          cases hrow : tables.agent? agentId with
          | none => rw [hrow] at h; cases h
          | some row =>
              rw [hrow] at h
              cases h
              exact ⟨_, logs_agent hrow rfl hexisting rfl rfl rfl fun found hcaused =>
                horigin _ rfl found _ rfl rfl hcaused⟩

/-- The upsert of an alert leaves the pauses. -/
theorem upsertAlert_samePauses {alert : AlertEvent} {alertId : String}
    (h : tables.upsertAlert ids alert = .ok (after, alertId)) : SamePauses tables after := by
  unfold upsertAlert at h
  split at h
  · cases h
    exact ⟨rfl, rfl, rfl⟩
  · obtain ⟨-, h⟩ := Checks.ite_error_eq_ok.mp h
    cases h
    exact ⟨rfl, rfl, rfl⟩

/-- What an action says of tables it says of those with the same pauses. -/
theorem Logs.of_samePauses {upserted : ControlTables} {action : OperatorAction}
    (h : SamePauses tables upserted) (hlogs : Logs print upserted action after) :
    Logs print tables action after where
  actions := by rw [hlogs.actions, h.actions]
  fresh := by
    have hfresh := hlogs.fresh
    rw [actionOf?, h.actions] at hfresh
    exact hfresh
  before := by rw [← h.pauseFields_eq]; exact hlogs.before
  afterwards := hlogs.afterwards
  others target hother := by rw [hlogs.others target hother, h.pauseFields_eq]
  origin := hlogs.origin

/-- What an alert that is recorded does. -/
theorem persistAlert_eq_ok {alert : AlertEvent}
    (h : tables.persistAlert print ids alert = .ok after) :
    ∃ upserted alertId, tables.upsertAlert ids alert = .ok (upserted, alertId) ∧
      (after = upserted ∨ ∃ scope target,
        upserted.pauseTarget print alert alertId scope target = .ok after) := by
  unfold persistAlert at h
  obtain ⟨⟨upserted, alertId⟩, hupserted, h⟩ := Checks.bind_eq_ok.mp h
  refine ⟨upserted, alertId, hupserted, ?_⟩
  dsimp only at h
  split at h
  · cases h
    exact .inl rfl
  · exact .inr ⟨_, _, h⟩
  · exact .inr ⟨_, _, h⟩
  · cases h

/-- A call leaves the pauses and the log, or logs an action with its change. -/
theorem step_logs (print : Instant → String) (ids : RandomIds) (tables : ControlTables)
    (call : Call) :
    SamePauses tables (tables.step print ids call).1 ∨
      ∃ action, Logs print tables action (tables.step print ids call).1 := by
  cases call with
  | control request =>
      unfold step
      dsimp only
      split
      · exact .inl (.refl tables)
      next after state hok =>
        rcases control_logs hok with rfl | hlogs
        · exact .inl (.refl _)
        · exact .inr hlogs
  | alert event =>
      unfold step
      dsimp only
      split
      · exact .inl ⟨rfl, rfl, rfl⟩
      next after hok =>
        obtain ⟨upserted, alertId, hupserted, hpaused⟩ := persistAlert_eq_ok hok
        have hsame := upsertAlert_samePauses hupserted
        rcases hpaused with rfl | ⟨scope, target, hpaused⟩
        · exact .inl ⟨hsame.controls, hsame.agents, hsame.actions⟩
        rcases pauseTarget_logs hpaused with rfl | ⟨action, hlogs⟩
        · exact .inl ⟨hsame.controls, hsame.agents, hsame.actions⟩
        have hall := hlogs.of_samePauses hsame
        exact .inr ⟨action, hall.actions, hall.fresh, hall.before, hall.afterwards, hall.others,
          hall.origin⟩

/-! ## The log -/

/-- The log links up and leads to the pauses, and a key is of one action. -/
structure Audited (print : Instant → String) (initial tables : ControlTables) : Prop where
  faithful : AuditLog.Faithful OperatorAction.target fieldsBefore fieldsAfter
    (initial.pauseFields print) (tables.pauseFields print) tables.actions
  unique : (tables.actions.map OperatorAction.idempotencyKey).Nodup
  origins : ∀ action ∈ tables.actions, ∀ alertId, causedBy alertId action = true →
    action.idempotencyKey = automaticPauseKey alertId

theorem audited_start (h : tables.actions = []) : Audited print tables tables where
  faithful := by
    rw [h]
    exact AuditLog.faithful_nil
  unique := by
    rw [h]
    exact List.nodup_nil
  origins action hmem := by
    rw [h] at hmem
    cases hmem

theorem Audited.samePauses {initial : ControlTables} (h : Audited print initial tables)
    (hsame : SamePauses tables after) : Audited print initial after where
  faithful := by
    have hfields : after.pauseFields print = tables.pauseFields print := by
      funext target
      exact hsame.pauseFields_eq target
    rw [hfields, hsame.actions]
    exact h.faithful
  unique := by rw [hsame.actions]; exact h.unique
  origins := by rw [hsame.actions]; exact h.origins

theorem Audited.logs {initial : ControlTables} {action : OperatorAction}
    (h : Audited print initial tables) (hlogs : Logs print tables action after) :
    Audited print initial after where
  faithful := by
    rw [hlogs.actions]
    exact h.faithful.concat hlogs.before.symm hlogs.afterwards hlogs.others
  unique := by
    rw [hlogs.actions, List.map_append, List.nodup_append_comm]
    apply List.nodup_cons.mpr
    refine ⟨fun hmem => ?_, h.unique⟩
    obtain ⟨other, hother, hkey⟩ := List.mem_map.mp hmem
    exact KeyedList.lookup_eq_none_iff.mp hlogs.fresh other hother hkey
  origins := by
    rw [hlogs.actions]
    intro other hother alertId hcaused
    rcases List.mem_append.mp hother with hother | hother
    · exact h.origins other hother alertId hcaused
    · rw [List.mem_singleton.mp hother] at hcaused ⊢
      exact hlogs.origin alertId hcaused

theorem Audited.step {initial : ControlTables} (h : Audited print initial tables) (ids : RandomIds)
    (call : Call) : Audited print initial (tables.step print ids call).1 := by
  rcases step_logs print ids tables call with hsame | ⟨action, hlogs⟩
  · exact h.samePauses hsame
  · exact h.logs hlogs

theorem audited_run (print : Instant → String) (ids : RandomIds) {initial : ControlTables}
    (hstart : initial.actions = []) (calls : List Call) :
    Audited print initial (Runs.final (step print ids) initial calls) :=
  Runs.final_invariant (step print ids) (fun _ tables => Audited print initial tables)
    (audited_start hstart) (fun _ _ call h => h.step ids call) calls

/-- The actions that the row of an alert has caused are one at most. -/
theorem Audited.length_causedBy_le {initial : ControlTables} (h : Audited print initial tables)
    (alertId : String) : (tables.actions.filter (causedBy alertId)).length ≤ 1 := by
  have hkeys : (tables.actions.filter (causedBy alertId)).map OperatorAction.idempotencyKey =
      List.replicate (tables.actions.filter (causedBy alertId)).length
        (automaticPauseKey alertId) := by
    rw [List.eq_replicate_iff]
    refine ⟨List.length_map _, fun key hkey => ?_⟩
    obtain ⟨action, haction, rfl⟩ := List.mem_map.mp hkey
    obtain ⟨hmem, hcaused⟩ := List.mem_filter.mp haction
    exact h.origins action hmem alertId hcaused
  have hunique : ((tables.actions.filter (causedBy alertId)).map
      OperatorAction.idempotencyKey).Nodup :=
    h.unique.sublist (List.filter_sublist.map _)
  rw [hkeys, List.nodup_replicate] at hunique
  exact hunique

/-! ## Pauses by alerts, and repeated keys -/

/-- A pause by an alert leaves paused what is. -/
theorem pauseTarget_isPaused {alert : AlertEvent} {alertId : String} {scope : AlertPauseScope}
    {target paused : ControlTarget}
    (h : tables.pauseTarget print alert alertId scope target = .ok after)
    (hpaused : tables.IsPaused paused) : after.IsPaused paused := by
  unfold pauseTarget at h
  dsimp only at h
  split at h
  · obtain ⟨-, h⟩ := Checks.ite_error_eq_ok.mp h
    cases h
    exact hpaused
  cases target with
  | system =>
      dsimp only at h
      split at h
      · cases h
      next row hrow =>
        obtain ⟨-, h⟩ := Checks.ite_error_eq_ok.mp h
        cases h
        cases paused with
        | system => exact ⟨_, rfl, rfl⟩
        | agent agentId => exact hpaused
  | agent agentId =>
      dsimp only at h
      split at h
      · cases h
      next row hrow =>
        cases h
        cases paused with
        | system => exact hpaused
        | agent other =>
            obtain ⟨found, hfound, hflag⟩ := hpaused
            by_cases hother : other = row.id
            · exact ⟨_, (agent?_setAgent _ other).trans (if_pos hother), rfl⟩
            · refine ⟨found, ?_, hflag⟩
              rw [← hfound]
              exact (agent?_setAgent _ other).trans (if_neg hother)

/-- An alert clears no pause. -/
theorem isPaused_alert (print : Instant → String) (ids : RandomIds) (event : AlertEvent)
    {target : ControlTarget} (h : tables.IsPaused target) :
    (tables.step print ids (.alert event)).1.IsPaused target := by
  unfold step
  dsimp only
  split
  · have hsame : SamePauses tables { tables with drawn := tables.drawn + 1 } := ⟨rfl, rfl, rfl⟩
    exact hsame.isPaused h
  next after hok =>
    obtain ⟨upserted, alertId, hupserted, hpaused⟩ := persistAlert_eq_ok hok
    have hkept : upserted.IsPaused target := (upsertAlert_samePauses hupserted).isPaused h
    have hall : after.IsPaused target := by
      rcases hpaused with rfl | ⟨scope, place, hpaused⟩
      · exact hkept
      · exact pauseTarget_isPaused hpaused hkept
    have hsame : SamePauses after { after with drawn := tables.drawn + 1 } := ⟨rfl, rfl, rfl⟩
    exact hsame.isPaused hall

/-- A request under a key of the log changes nothing. -/
theorem step_control_of_used {request : ControlRequest}
    (h : (tables.actionOf? request.idempotencyKey).isSome = true) :
    (tables.step print ids (.control request)).1 = tables := by
  obtain ⟨existing, hexisting⟩ := Option.isSome_iff_exists.mp h
  unfold step
  dsimp only
  split
  · rfl
  next after state hok =>
    unfold control at hok
    obtain ⟨_, -, hok⟩ := Checks.bind_eq_ok.mp hok
    obtain ⟨moment, -, hok⟩ := Checks.bind_eq_ok.mp hok
    rw [hexisting] at hok
    obtain ⟨-, hok⟩ := Checks.ite_error_eq_ok.mp hok
    cases hok
    rfl

/-- An alert whose row has its action leaves the pauses and the log. -/
theorem step_alert_of_used {event : AlertEvent} {row : AlertRow}
    (hrow : tables.openAlert? event.dedupeKey = some row)
    (h : (tables.actionOf? (automaticPauseKey row.id)).isSome = true) :
    SamePauses tables (tables.step print ids (.alert event)).1 := by
  obtain ⟨existing, hexisting⟩ := Option.isSome_iff_exists.mp h
  unfold step
  dsimp only
  split
  · exact ⟨rfl, rfl, rfl⟩
  next after hok =>
    obtain ⟨upserted, alertId, hupserted, hpaused⟩ := persistAlert_eq_ok hok
    have hsame := upsertAlert_samePauses hupserted
    have hid : alertId = row.id := by
      unfold upsertAlert at hupserted
      rw [hrow] at hupserted
      cases hupserted
      rfl
    rcases hpaused with rfl | ⟨scope, target, hpaused⟩
    · exact ⟨hsame.controls, hsame.agents, hsame.actions⟩
    · have hlogged : upserted.actionOf? (automaticPauseKey alertId) = some existing := by
        rw [actionOf?, hsame.actions, hid]
        exact hexisting
      unfold pauseTarget at hpaused
      dsimp only at hpaused
      rw [hlogged] at hpaused
      obtain ⟨-, hpaused⟩ := Checks.ite_error_eq_ok.mp hpaused
      cases hpaused
      exact ⟨hsame.controls, hsame.agents, hsame.actions⟩

/-- The log of the pauses tells of them. -/
structure TrueToLog (print : Instant → String) (ids : RandomIds) (tables : ControlTables) :
    Prop where
  /-- The latest action on a target says what its pause is. -/
  latest : ∀ target action, (tables.actionsOn target).getLast? = some action →
    tables.pauseFields print target = some (loggedFields target action.afterState)
  /-- An action on a target starts from what the one before it has left. -/
  linked : ∀ target, (tables.actionsOn target).IsChain fun earlier later =>
    loggedFields target later.beforeState = loggedFields target earlier.afterState
  /-- The row of an alert causes one pause at most. -/
  once : ∀ alertId, (tables.actions.filter (causedBy alertId)).length ≤ 1
  /-- An alert clears no pause. -/
  kept : ∀ event target, tables.IsPaused target →
    (tables.step print ids (.alert event)).1.IsPaused target
  /-- A request under a key of the log changes nothing. -/
  repeated : ∀ request, (tables.actionOf? request.idempotencyKey).isSome = true →
    (tables.step print ids (.control request)).1 = tables
  /-- Nor does an alert whose row has its action, but for the row. -/
  recurrent : ∀ event row, tables.openAlert? event.dedupeKey = some row →
    (tables.actionOf? (automaticPauseKey row.id)).isSome = true →
      SamePauses tables (tables.step print ids (.alert event)).1

theorem Audited.trueToLog {initial : ControlTables} (h : Audited print initial tables)
    (ids : RandomIds) : TrueToLog print ids tables := by
  have htarget {target : ControlTarget} {action : OperatorAction}
      (hmem : action ∈ tables.actionsOn target) : action.target = target := by
    simpa using (List.mem_filter.mp hmem).2
  refine ⟨?_, ?_, h.length_causedBy_le, ?_, ?_, ?_⟩
  · intro target action hlatest
    rw [h.faithful.current_eq target, AuditLog.latest,
      show (AuditLog.entriesOn OperatorAction.target tables.actions target).getLast? = some action
        from hlatest, Option.elim_some, fieldsAfter, htarget (List.mem_of_getLast? hlatest)]
  · intro target
    refine List.IsChain.imp_of_mem_imp ?_ (h.faithful.linked target)
    intro earlier later hearlier hlater hfields
    rw [fieldsBefore, fieldsAfter, htarget hearlier, htarget hlater] at hfields
    exact Option.some.inj hfields
  · exact fun event target hpaused => isPaused_alert print ids event hpaused
  · exact fun request hused => step_control_of_used hused
  · intro event row hrow hused
    exact step_alert_of_used hrow hused

/-- Over any run of requests and alerts, from tables whose log is empty, the log tells of the
pauses. -/
theorem pauses_audited (print : Instant → String) (ids : RandomIds) (tables : ControlTables)
    (calls : List Call) :
    TrueToLog print ids (Runs.final (step print ids) { tables with actions := [] } calls) :=
  (audited_run print ids rfl calls).trueToLog ids

end ControlTables

namespace Sample

theorem budgetAlert_severity : "critical" = "warning" ∨ "critical" = "critical" := .inr rfl

theorem budgetAlert_named : "projected_budget_exceeded" ≠ "" ∧ "projected-budget" ≠ "" := by decide

theorem budgetAlert_opened :
    moment.isAware = true ∧ (Datetime.utc moment.instant).isSome = true := by decide +kernel

/-- An alert that pauses the system. -/
def budgetAlert : AlertEvent where
  runId := none
  agentId := none
  severity := "critical"
  code := "projected_budget_exceeded"
  openedAt := moment
  dedupeKey := "projected-budget"
  severity_valid := budgetAlert_severity
  named := budgetAlert_named
  opened_aware := budgetAlert_opened

def resumeSystem : ControlRequest :=
  ⟨.system, false, "operator-1", "resume-system-0001", none, moment⟩

/-- Tables of a system that is not paused. -/
def unpaused : ControlTables := ⟨some ⟨false, 1, 0, "migration"⟩, [], [], [], [], 0⟩

/-- The alert pauses the system, and not again once an operator has resumed it. -/
example : (Runs.final (ControlTables.step (fun _ => "") randomIds) unpaused
    [.alert budgetAlert, .control resumeSystem, .alert budgetAlert]).controls =
      some ⟨false, 3, moment.instant, "operator-1"⟩ := by
  decide +kernel

end Sample

end VTrade
