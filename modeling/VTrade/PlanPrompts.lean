/-
# The plans that a prompt tells

A prompt tells the long-term plan of its agent and the plan for its next cycle, and it is refused
if there are two of a kind.  A plan is appended without a lock: the update that archives the older
ones does not see what another transaction commits meanwhile, so two appends of a kind that overlap
may leave two plans active.

As long as the appends of one agent and kind come one after another, the active plans are those of
the private memory, and the prompt tells of each kind the plan that was stored last.
-/

import VTrade.AgentBeliefs
import VTrade.Lib.JsonText
import VTrade.Lib.KeyedList

namespace VTrade

/-! ## Prompts -/

/-- `PromptBuilder`. -/
structure PromptBuilder where
  systemPrompt : String
  not_blank : Text.isBlank systemPrompt = false
  resolved : Text.contains systemPrompt "{trading_tool_ref}" = false

def PromptBuilder.make (systemPrompt : String) : Except Raised PromptBuilder :=
  if hblank : Text.isBlank systemPrompt = false then
    if hresolved : Text.contains systemPrompt "{trading_tool_ref}" = false then
      .ok ⟨systemPrompt, hblank, hresolved⟩
    else .error (.valueError "system prompt contains unresolved trading tool placeholder")
  else .error (.valueError "system prompt cannot be empty")

/-- What a prompt tells of a plan. -/
def PlanRecord.told (isoformat : Instant → String) (plan : PlanRecord) : Json :=
  .object [
    ("content", .text plan.content),
    ("created_at", .text (isoformat plan.createdAt.instant)),
    ("due_at", (plan.dueAt.map fun due => Json.text (isoformat due.instant)).getD .null)]

namespace PromptBuilder

/-- `plan_payload`, which a plan is put into. -/
def putPlan (isoformat : Instant → String) (payload : PlanType → Option Json)
    (plan : PlanRecord) : Except MemoryFailure (PlanType → Option Json) :=
  if (payload plan.planType).isSome then
    .error (.valueError ("prompt context contains duplicate " ++ plan.planType.value ++ " plans"))
  else .ok (Function.update payload plan.planType (some (plan.told isoformat)))

/-- The messages of a prompt. -/
def messages (builder : PromptBuilder) (cycleContext recentActivity : Json)
    (payload : PlanType → Option Json) : JsonObject × JsonObject :=
  ([("role", .text "system"), ("content", .text builder.systemPrompt)],
    [("role", .text "user"),
      ("content", .text (String.ofList (JsonText.dumps true (Json.object [
        ("cycle_context", cycleContext),
        ("long_term_plan", (payload .longTerm).getD .null),
        ("next_cycle_plan", (payload .nextCycle).getD .null),
        ("recent_activity", recentActivity)]).sorted)))])

/-- `build`. -/
def build (builder : PromptBuilder) (isoformat : Instant → String) (agentId : String)
    (cycleContext : Json) (plans : List PlanRecord) (recentActivity : Json) :
    Except MemoryFailure (JsonObject × JsonObject) :=
  if plans.any fun plan => plan.agentId ≠ agentId then
    .error (.permissionError "prompt context cannot include another agent's memory")
  else do
    let payload ← plans.foldlM (putPlan isoformat) fun _ => none
    .ok (builder.messages cycleContext recentActivity payload)

end PromptBuilder

/-- `ORDER BY r.created_at, p.id`. -/
def planRank (plan : PlanRecord) : Instant ×ₗ String := toLex (plan.createdAt.instant, plan.id)

def MemoryTables.readPlans (tables : MemoryTables) (actorId targetAgentId : String) :
    Except MemoryFailure (List PlanRecord) :=
  if actorId ≠ targetAgentId then
    .error (.permissionError "agent cannot read another agent's plans")
  else .ok ((tables.activePlans actorId).insertionSort fun first second =>
    planRank first ≤ planRank second)

/-- The plan of an agent and a kind that has been stored last. -/
def lastPlan (records : List MemoryRecord) (agentId : String) (planType : PlanType) :
    Option PlanRecord :=
  (records.filterMap fun
    | .plan plan => if plan.agentId = agentId ∧ plan.planType = planType then some plan else none
    | .belief _ => none).getLast?

/-! ## One plan of a kind -/

namespace PromptBuilder

variable {isoformat : Instant → String} {plans : List PlanRecord}

/-- Plans of different kinds are all put into a payload that has none of their kinds. -/
theorem putPlans {payload : PlanType → Option Json}
    (unique : (plans.map PlanRecord.planType).Nodup)
    (hempty : ∀ plan ∈ plans, payload plan.planType = none) :
    plans.foldlM (putPlan isoformat) payload = .ok fun planType =>
      (payload planType).or
        ((KeyedList.lookup PlanRecord.planType planType plans).map
          (PlanRecord.told isoformat)) := by
  induction plans generalizing payload with
  | nil =>
      simp only [KeyedList.lookup_nil, Option.map_none, Option.or_none]
      rfl
  | cons plan rest ih =>
      rw [List.map_cons, List.nodup_cons] at unique
      have hplan := hempty plan List.mem_cons_self
      have hput : putPlan isoformat payload plan =
          .ok (Function.update payload plan.planType (some (plan.told isoformat))) := by
        rw [putPlan, hplan]
        rfl
      rw [List.foldlM_cons, hput]
      have hrest : ∀ other ∈ rest, other.planType ≠ plan.planType := fun other hother hsame =>
        unique.1 (List.mem_map.mpr ⟨other, hother, hsame⟩)
      refine (ih unique.2 fun other hother => ?_).trans (congrArg _ (funext fun planType => ?_))
      · rw [Function.update_of_ne (hrest other hother)]
        exact hempty other (List.mem_cons_of_mem plan hother)
      · rw [KeyedList.lookup_cons]
        by_cases htype : plan.planType = planType
        · subst htype
          rw [Function.update_self, if_pos rfl, hplan]
          rfl
        · rw [Function.update_of_ne (Ne.symm htype), if_neg htype]

/-- A prompt with one plan of a kind is built. -/
theorem build_eq_ok {builder : PromptBuilder} {agentId : String} {cycleContext : Json}
    {recentActivity : Json} (hagent : ∀ plan ∈ plans, plan.agentId = agentId)
    (unique : (plans.map PlanRecord.planType).Nodup) :
    builder.build isoformat agentId cycleContext plans recentActivity =
      .ok (builder.messages cycleContext recentActivity fun planType =>
        (KeyedList.lookup PlanRecord.planType planType plans).map
          (PlanRecord.told isoformat)) := by
  have hforeign : plans.any (fun plan => plan.agentId ≠ agentId) = false := by
    rw [List.any_eq_false]
    intro plan hplan
    simpa using hagent plan hplan
  rw [build, hforeign, putPlans unique fun _ _ => rfl]
  simp only [Option.none_or]
  rfl

end PromptBuilder

theorem lastPlan_concat_belief (records : List MemoryRecord) (belief : BeliefRecord)
    (agentId : String) (planType : PlanType) :
    lastPlan (records ++ [.belief belief]) agentId planType =
      lastPlan records agentId planType := by
  rw [lastPlan, lastPlan, List.filterMap_append]
  exact congrArg List.getLast? (List.append_nil _)

theorem lastPlan_concat_plan (records : List MemoryRecord) (plan : PlanRecord)
    (agentId : String) (planType : PlanType) :
    lastPlan (records ++ [.plan plan]) agentId planType =
      if plan.agentId = agentId ∧ plan.planType = planType then some plan
      else lastPlan records agentId planType := by
  rw [lastPlan, lastPlan, List.filterMap_append]
  split
  next hplan => simp [hplan]
  next hplan => simp [hplan]

/-- A plan that takes the place of those of its kind. -/
theorem replace_plan {plans : List PlanRecord} (plan : PlanRecord)
    (unique : (plans.map PlanRecord.planType).Nodup) :
    ((plans.filter (fun item => item.planType ≠ plan.planType) ++ [plan]).map
      PlanRecord.planType).Nodup ∧
    ∀ planType, KeyedList.lookup PlanRecord.planType planType
        (plans.filter (fun item => item.planType ≠ plan.planType) ++ [plan]) =
      if plan.planType = planType then some plan
      else KeyedList.lookup PlanRecord.planType planType plans := by
  constructor
  · rw [List.map_append, List.map_singleton, List.nodup_append]
    refine ⟨unique.sublist (List.filter_sublist.map _), List.nodup_singleton _, ?_⟩
    rintro _ hold _ hnew rfl
    obtain ⟨old, hold, htype⟩ := List.mem_map.mp hold
    have hne := List.of_mem_filter hold
    rw [decide_eq_true_eq] at hne
    exact hne (htype.trans (List.mem_singleton.mp hnew))
  · intro planType
    rw [KeyedList.lookup_append, KeyedList.lookup_filter unique, KeyedList.lookup_cons]
    by_cases htype : plan.planType = planType
    · rw [if_pos htype, if_pos htype]
      subst htype
      have hnone : (KeyedList.lookup PlanRecord.planType plan.planType plans).filter
          (fun item => decide (item.planType ≠ plan.planType)) = none := by
        rw [Option.filter_eq_none_iff]
        intro old hold
        simp [KeyedList.key_of_lookup_eq_some hold]
      rw [hnone, Option.none_or]
    · rw [if_neg htype, if_neg htype, KeyedList.lookup_nil, Option.or_none]
      cases hfound : KeyedList.lookup PlanRecord.planType planType plans with
      | none => rfl
      | some old =>
          have hold : old.planType ≠ plan.planType := by
            rw [KeyedList.key_of_lookup_eq_some hfound]
            exact Ne.symm htype
          exact if_pos (decide_eq_true hold)

namespace PrivateAgentMemory

variable {memory after : PrivateAgentMemory} {records : List MemoryRecord}

/-- A memory has one plan of a kind, the last one that was added. -/
theorem plans_of_addAll (h : empty.addAll records = .ok memory) (agentId : String) :
    ((memory.plans agentId).map PlanRecord.planType).Nodup ∧
      (∀ plan ∈ memory.plans agentId, plan.agentId = agentId) ∧
      ∀ planType, KeyedList.lookup PlanRecord.planType planType (memory.plans agentId) =
        lastPlan records agentId planType := by
  induction records using List.reverseRecOn generalizing memory with
  | nil =>
      cases h
      exact ⟨List.nodup_nil, by rintro _ ⟨⟩, fun _ => rfl⟩
  | append_singleton records record ih =>
      cases hbefore : empty.addAll records with
      | error failure =>
          unfold addAll at h hbefore
          rw [List.foldlM_append, hbefore] at h
          cases h
      | ok before =>
          obtain ⟨hunique, hagent, hlast⟩ := ih hbefore
          rw [addAll_concat hbefore] at h
          cases record with
          | belief belief =>
              rw [add_belief] at h
              cases h
              refine ⟨hunique, hagent, fun planType => ?_⟩
              rw [hlast planType, lastPlan_concat_belief]
          | plan plan =>
              rw [add_plan] at h
              cases h
              dsimp only
              by_cases hagent' : plan.agentId = agentId
              · subst hagent'
                rw [Function.update_self]
                obtain ⟨hunique', hlookup⟩ := replace_plan plan hunique
                refine ⟨hunique', fun item hitem => ?_, fun planType => ?_⟩
                · rcases List.mem_append.mp hitem with hitem | hitem
                  · exact hagent item (List.mem_of_mem_filter hitem)
                  · rw [List.mem_singleton.mp hitem]
                · rw [hlookup, lastPlan_concat_plan, hlast planType]
                  simp only [true_and]
              · rw [Function.update_of_ne (Ne.symm hagent')]
                refine ⟨hunique, hagent, fun planType => ?_⟩
                rw [lastPlan_concat_plan, if_neg fun h => hagent' h.1]
                exact hlast planType

end PrivateAgentMemory

/-! ## One append after another -/

namespace MemoryTables

variable {tables : MemoryTables}

theorem plan?_eq_none_iff {id : String} :
    tables.plan? id = none ↔ id ∉ tables.plans.map fun row => row.plan.id := by
  simp [plan?]

theorem ids_replacePlans (archived : List String) (row : PlanRow) :
    (tables.replacePlans archived row).plans.map (fun row => row.plan.id) =
      tables.plans.map (fun row => row.plan.id) ++ [row.plan.id] := by
  unfold replacePlans
  rw [List.map_append, List.map_map]
  refine congrArg (· ++ _) (List.map_congr_left fun old _ => ?_)
  dsimp only [Function.comp_apply]
  split <;> rfl

theorem agentId_of_mem_activePlans {agentId : String} {plan : PlanRecord}
    (h : plan ∈ tables.activePlans agentId) : plan.agentId = agentId := by
  obtain ⟨row, hrow, rfl⟩ := List.mem_map.mp h
  have hagent := List.of_mem_filter hrow
  rw [decide_eq_true_eq] at hagent
  exact hagent.1

/-- The rows that an update of some identifiers changes. -/
theorem mem_archived_iff {archived : List String} {row old : PlanRow}
    (unique : (tables.plans.map fun row => row.plan.id).Nodup)
    (harchived : archived = ((tables.activePlans row.plan.agentId).filter fun plan =>
      plan.planType = row.plan.planType).map PlanRecord.id) (hold : old ∈ tables.plans) :
    old.plan.id ∈ archived ↔ old.plan.agentId = row.plan.agentId ∧ old.active = true ∧
      old.plan.planType = row.plan.planType := by
  rw [harchived]
  simp only [activePlans, List.mem_map, List.mem_filter, decide_eq_true_eq]
  constructor
  · rintro ⟨_, ⟨⟨found, ⟨hfound, hagent, hactive⟩, rfl⟩, htype⟩, hid⟩
    obtain rfl := List.inj_on_of_nodup_map unique hfound hold hid
    exact ⟨hagent, hactive, htype⟩
  · rintro ⟨hagent, hactive, htype⟩
    exact ⟨old.plan, ⟨⟨old, ⟨hold, hagent, hactive⟩, rfl⟩, htype⟩, rfl⟩

/-- The plans of an agent after others of their kind are archived and one comes in. -/
theorem activePlans_replacePlans {archived : List String} {row : PlanRow}
    (unique : (tables.plans.map fun row => row.plan.id).Nodup)
    (harchived : archived = ((tables.activePlans row.plan.agentId).filter fun plan =>
      plan.planType = row.plan.planType).map PlanRecord.id)
    (hactive : row.active = true) (agentId : String) :
    (tables.replacePlans archived row).activePlans agentId =
      if row.plan.agentId = agentId then
        (tables.activePlans agentId).filter (fun plan => plan.planType ≠ row.plan.planType) ++
          [row.plan]
      else tables.activePlans agentId := by
  have hplan (old : PlanRow) :
      (if old.plan.id ∈ archived then { old with active := false } else old).plan = old.plan := by
    split <;> rfl
  have hkept : ((tables.plans.map fun old =>
        if old.plan.id ∈ archived then { old with active := false } else old).filter fun old =>
          old.plan.agentId = agentId ∧ old.active).map PlanRow.plan =
      (tables.activePlans agentId).filter fun plan =>
        ¬ (plan.agentId = row.plan.agentId ∧ plan.planType = row.plan.planType) := by
    unfold activePlans
    rw [List.filter_map, List.map_map, List.filter_map, List.filter_filter]
    have hmap : (PlanRow.plan ∘ fun old : PlanRow =>
        if old.plan.id ∈ archived then { old with active := false } else old) = PlanRow.plan :=
      funext hplan
    rw [hmap]
    refine congrArg _ (List.filter_congr fun old hold => ?_)
    rw [Function.comp_apply, Function.comp_apply, hplan old, Bool.eq_iff_iff]
    have hiff := mem_archived_iff unique harchived hold
    by_cases hin : old.plan.id ∈ archived
    · obtain ⟨hagent, -, htype⟩ := hiff.mp hin
      simp [hin, hagent, htype]
    · have hnot := hiff.not.mp hin
      simp only [if_neg hin, Bool.and_eq_true, decide_eq_true_eq]
      tauto
  have happend : (tables.replacePlans archived row).activePlans agentId =
      (tables.activePlans agentId).filter (fun plan =>
        ¬ (plan.agentId = row.plan.agentId ∧ plan.planType = row.plan.planType)) ++
        if row.plan.agentId = agentId then [row.plan] else [] := by
    rw [← hkept]
    unfold replacePlans activePlans
    dsimp only
    rw [List.filter_append, List.map_append, List.filter_singleton, hactive]
    by_cases hagent : row.plan.agentId = agentId <;> simp [hagent]
  rw [happend]
  split
  next hagent =>
    refine congrArg (· ++ _) (List.filter_congr fun plan hmem => ?_)
    simp [agentId_of_mem_activePlans hmem, hagent]
  next hagent =>
    rw [List.append_nil, List.filter_eq_self]
    intro plan hmem
    rw [decide_eq_true_eq, agentId_of_mem_activePlans hmem]
    exact fun hsame => hagent hsame.1.symm

end MemoryTables

namespace MemoryWorld

variable {n : ℕ} {texts : JsonTexts} {maximum : ℕ} {world : MemoryWorld n} {worker : Fin n}

theorem plansToArchive_eq (world : MemoryWorld n) (plan : PlanRecord) :
    world.plansToArchive plan = ((world.tables.activePlans plan.agentId).filter fun other =>
      other.planType = plan.planType).map PlanRecord.id := by
  unfold plansToArchive MemoryTables.activePlans
  rw [List.filter_map, List.map_map, List.filter_filter]
  refine congrArg _ (List.filter_congr fun row _ => ?_)
  rw [Bool.eq_iff_iff]
  simp
  tauto

/-- No other worker is appending a plan of the same agent and kind. -/
def Free (world : MemoryWorld n) (worker : Fin n) (plan : PlanRecord) : Prop :=
  ∀ other, other ≠ worker → ∀ item ∈ (world.stages other).plan?,
    ¬ (item.agentId = plan.agentId ∧ item.planType = plan.planType)

/-- An append of a plan begins when no other worker is appending one of the same agent and
kind. -/
def OneByOne (world : MemoryWorld n) : MemoryEvent n → Prop
  | .appendPlan worker plan _ _ => world.Free worker plan
  | .appendBelief _ _ _ _ | .deleteBelief _ _ _ | .advance _ | .stop _ => True

instance (world : MemoryWorld n) (worker : Fin n) (plan : PlanRecord) :
    Decidable (world.Free worker plan) :=
  inferInstanceAs (Decidable (∀ _, _))

instance (world : MemoryWorld n) (event : MemoryEvent n) : Decidable (world.OneByOne event) :=
  match event with
  | .appendPlan worker plan _ _ => inferInstanceAs (Decidable (world.Free worker plan))
  | .appendBelief _ _ _ _ | .deleteBelief _ _ _ | .advance _ | .stop _ => isTrue trivial

/-- One worker at a time appends plans of an agent and a kind, what it archives are the active
ones, and the active plans are those of the private memory. -/
structure Serial (world : MemoryWorld n) : Prop where
  free : ∀ worker plan, (world.stages worker).plan? = some plan → world.Free worker plan
  chosen : ∀ worker plan ids, (world.stages worker).chosen? = some (plan, ids) →
    ids = world.plansToArchive plan
  unique : (world.tables.plans.map fun row => row.plan.id).Nodup
  fresh : ∀ worker plan, (world.stages worker).insertedPlan? = some plan →
    world.tables.plan? plan.id = none
  apart : ∀ first second plan plan', (world.stages first).insertedPlan? = some plan →
    (world.stages second).insertedPlan? = some plan' → plan.id = plan'.id → first = second
  stored : ∃ memory, PrivateAgentMemory.empty.addAll world.stored = .ok memory ∧
    ∀ agentId, memory.plans agentId = world.tables.activePlans agentId

namespace Serial

/-- A worker may append a plan where no other does, archive the active ones, and insert a plan
that is new. -/
theorem move (h : Serial world) {stage : MemoryStage}
    (hfree : ∀ plan, stage.plan? = some plan → world.Free worker plan)
    (hchosen : ∀ plan ids, stage.chosen? = some (plan, ids) → ids = world.plansToArchive plan)
    (hnew : ∀ plan, stage.insertedPlan? = some plan →
      world.tables.plan? plan.id = none ∧ ¬ world.PlanInFlight worker plan.id) :
    Serial (world.move worker stage) where
  free other plan hplan third hthird item hitem := by
    simp only [MemoryWorld.move, Function.update_apply] at hplan hitem
    split at hplan
    next hother =>
      subst hother
      rw [if_neg hthird] at hitem
      exact hfree plan hplan third hthird item hitem
    next hother =>
      split at hitem
      · intro hsame
        exact hfree item hitem other hother plan hplan ⟨hsame.1.symm, hsame.2.symm⟩
      · exact h.free other plan hplan third hthird item hitem
  chosen other plan ids hplan := by
    simp only [MemoryWorld.move, Function.update_apply] at hplan
    split at hplan
    · exact hchosen plan ids hplan
    · exact h.chosen other plan ids hplan
  unique := h.unique
  fresh other plan hplan := by
    simp only [MemoryWorld.move, Function.update_apply] at hplan
    split at hplan
    · exact (hnew plan hplan).1
    · exact h.fresh other plan hplan
  apart first second plan plan' hfirst hsecond hid := by
    simp only [MemoryWorld.move, Function.update_apply] at hfirst hsecond
    split at hfirst
    next hworker =>
      split at hsecond
      next hworker' => exact hworker.trans hworker'.symm
      next hother =>
        exact absurd ⟨second, hother, plan', hsecond, hid.symm⟩ (hnew plan hfirst).2
    next hother =>
      split at hsecond
      · exact absurd ⟨first, hother, plan, hfirst, hid⟩ (hnew plan' hsecond).2
      · exact h.apart first second plan plan' hfirst hsecond hid
  stored := h.stored

/-- A worker may stop appending. -/
theorem leave (h : Serial world) {stage : MemoryStage} (hplan : stage.plan? = none) :
    Serial (world.move worker stage) := by
  refine h.move (fun plan hheld => ?_) (fun plan ids hheld => ?_) fun plan hheld => ?_
  · rw [hplan] at hheld
    cases hheld
  · rw [MemoryStage.plan?_of_chosen? hheld] at hplan
    cases hplan
  · rw [MemoryStage.plan?_of_insertedPlan? hheld] at hplan
    cases hplan

/-- The beliefs do not matter. -/
theorem of_beliefs (h : Serial world) (beliefs : List BeliefRow) :
    Serial { world with tables := { world.tables with beliefs } } :=
  ⟨h.free, h.chosen, h.unique, h.fresh, h.apart, h.stored⟩

/-- A belief is committed. -/
theorem commitBelief (h : Serial world) (belief : BeliefRecord) (row : BeliefRow) :
    Serial (world.commit worker (world.tables.insertBelief row) (.belief belief)).1 := by
  have hidle : Serial (world.move worker .idle) := h.leave rfl
  obtain ⟨free, chosen, unique, fresh, apart, memory, hmemory, hplans⟩ :=
    hidle.of_beliefs (world.tables.beliefs ++ [row])
  refine ⟨free, chosen, unique, fresh, apart, _,
    (PrivateAgentMemory.addAll_concat hmemory _).trans (PrivateAgentMemory.add_belief belief),
    hplans⟩

/-- The plan of a worker that is about to commit comes in. -/
theorem commitPlan (h : Serial world) {plan : PlanRecord} {cycleId : String}
    {archived : List String}
    (hstage : world.stages worker = .plan (.committing archived) plan cycleId)
    (row : PlanRow) (hrow : row.plan = plan) (hactive : row.active = true) :
    Serial (world.commit worker (world.tables.replacePlans archived row) (.plan plan)).1 := by
  obtain rfl := hrow
  have hidle : Serial (world.move worker .idle) := h.leave rfl
  have hheld : (world.stages worker).plan? = some row.plan := by rw [hstage]; rfl
  have hinserted : (world.stages worker).insertedPlan? = some row.plan := by rw [hstage]; rfl
  have harchived : archived = world.plansToArchive row.plan :=
    h.chosen worker row.plan archived (by rw [hstage]; rfl)
  rw [plansToArchive_eq] at harchived
  have hplans := MemoryTables.activePlans_replacePlans h.unique harchived hactive
  have hothers (other : Fin n) (item : PlanRecord)
      (hitem : ((world.move worker .idle).stages other).plan? = some item) :
      ¬ (item.agentId = row.plan.agentId ∧ item.planType = row.plan.planType) := by
    obtain ⟨hother, hitem⟩ := of_idle MemoryStage.plan? rfl hitem
    exact h.free worker row.plan hheld other hother item hitem
  refine ⟨hidle.free, fun other item ids hitem => ?_, ?_, fun other item hitem => ?_,
    hidle.apart, ?_⟩
  · rw [hidle.chosen other item ids hitem, plansToArchive_eq, plansToArchive_eq]
    change ((world.tables.activePlans item.agentId).filter _).map _ =
      (((world.tables.replacePlans archived row).activePlans item.agentId).filter _).map _
    rw [hplans]
    split
    next hagent =>
      have htype : item.planType ≠ row.plan.planType := fun htype =>
        hothers other item (MemoryStage.plan?_of_chosen? hitem) ⟨hagent.symm, htype⟩
      rw [List.filter_append, List.filter_filter, List.filter_singleton,
        decide_eq_false (Ne.symm htype), cond_false, List.append_nil]
      refine congrArg _ (List.filter_congr fun old _ => ?_)
      rw [Bool.eq_iff_iff, Bool.and_eq_true, decide_eq_true_eq, decide_eq_true_eq]
      exact ⟨fun hsame => ⟨hsame, hsame ▸ htype⟩, fun hsame => hsame.1⟩
    · rfl
  · change ((world.tables.replacePlans archived row).plans.map fun row => row.plan.id).Nodup
    rw [MemoryTables.ids_replacePlans, List.nodup_append]
    refine ⟨h.unique, List.nodup_singleton _, ?_⟩
    rintro id hold _ hnew rfl
    rw [List.mem_singleton] at hnew
    subst hnew
    exact MemoryTables.plan?_eq_none_iff.mp (h.fresh worker row.plan hinserted) hold
  · refine MemoryTables.plan?_eq_none_iff.mpr fun hmem => ?_
    obtain ⟨hother, hitem'⟩ := of_idle MemoryStage.insertedPlan? rfl hitem
    change _ ∈ (world.tables.replacePlans archived row).plans.map _ at hmem
    rw [MemoryTables.ids_replacePlans] at hmem
    rcases List.mem_append.mp hmem with hold | hnew
    · exact MemoryTables.plan?_eq_none_iff.mp (h.fresh other item hitem') hold
    · exact hother (h.apart other worker item row.plan hitem' hinserted
        (List.mem_singleton.mp hnew))
  · obtain ⟨memory, hmemory, hmemories⟩ := h.stored
    refine ⟨_, (PrivateAgentMemory.addAll_concat hmemory _).trans
      (PrivateAgentMemory.add_plan row.plan), fun agentId => ?_⟩
    refine Eq.trans ?_ (hplans agentId).symm
    dsimp only
    split
    next hagent =>
      subst hagent
      rw [Function.update_self, hmemories]
    next hagent => rw [Function.update_of_ne (Ne.symm hagent), hmemories]

/-- A statement keeps it so, unless it begins an append while another goes on. -/
theorem statement (h : Serial world) {event : MemoryEvent n} {after : MemoryWorld n}
    {answer : Option MemoryAnswer}
    (hstatement : Statement texts maximum world event after answer)
    (hfree : world.OneByOne event) : Serial after := by
  cases hstatement with
  | stays | finds | findsPlan => exact h
  | leaves _ worker stage _ hrecord _ => exact h.leave (MemoryStage.plan?_of_record? hrecord)
  | begins | locks | counts | inserts | alreadyInactive => exact h.leave rfl
  | commits _ worker belief cycleId hstage => exact h.commitBelief belief _
  | beginsPlan worker plan cycleId hstage =>
      refine h.move (fun item hitem => ?_) (fun item ids hitem => ?_) fun item hitem => ?_
      · cases hitem
        exact hfree
      · cases hitem
      · cases hitem
  | findsPlans _ worker plan cycleId hstage =>
      refine h.move (fun item hitem => ?_) (fun item ids hitem => ?_) fun item hitem => ?_
      · cases hitem
        exact h.free worker plan (by rw [hstage]; rfl)
      · cases hitem
        rfl
      · cases hitem
  | archives _ worker plan cycleId found hstage =>
      refine h.move (fun item hitem => ?_) (fun item ids hitem => ?_) fun item hitem => ?_
      · cases hitem
        exact h.free worker plan (by rw [hstage]; rfl)
      · cases hitem
        obtain rfl := h.chosen worker plan found (by rw [hstage]; rfl)
        exact List.filter_eq_self.mpr fun id hid => decide_eq_true hid
      · cases hitem
  | insertsPlan _ worker plan cycleId archived hstage hfree' hnew =>
      refine h.move (fun item hitem => ?_) (fun item ids hitem => ?_) fun item hitem => ?_
      · cases hitem
        exact h.free worker plan (by rw [hstage]; rfl)
      · cases hitem
        exact h.chosen worker plan archived (by rw [hstage]; rfl)
      · cases hitem
        exact ⟨hnew, hfree'⟩
  | commitsPlan _ worker plan cycleId archived hstage => exact h.commitPlan hstage _ rfl rfl
  | deactivates _ agentId beliefId row hrow hid => exact h.of_beliefs _

end Serial

theorem serial_start (agents cycles : List String) :
    Serial (start agents cycles : MemoryWorld n) where
  free := by
    rintro _ _ ⟨⟩
  chosen := by
    rintro _ _ _ ⟨⟩
  unique := List.nodup_nil
  fresh := by
    rintro _ _ ⟨⟩
  apart := by
    rintro _ _ _ _ ⟨⟩
  stored := ⟨.empty, rfl, fun _ => rfl⟩

end MemoryWorld

/-- **A prompt tells the plans that were stored last.**  In a run in which no two appends of plans
of one agent and kind overlap, an agent reads the plans that the private memory keeps of it after
everything that has been stored, and its prompt is built and tells of each kind the plan that was
stored last. -/
theorem prompt_plans (texts : JsonTexts) (maximum : ℕ) (agents cycles : List String) {n : ℕ}
    (events : List (MemoryEvent n))
    (hrun : Runs.Along (MemoryWorld.step texts maximum) MemoryWorld.OneByOne
      (.start agents cycles) events)
    (isoformat : Instant → String) (builder : PromptBuilder) (agentId : String)
    (cycleContext recentActivity : Json) :
    let world : MemoryWorld n :=
      Runs.final (MemoryWorld.step texts maximum) (.start agents cycles) events
    ∃ memory told, PrivateAgentMemory.empty.addAll world.stored = .ok memory ∧
      world.tables.readPlans agentId agentId = .ok told ∧ told.Perm (memory.plans agentId) ∧
      builder.build isoformat agentId cycleContext told recentActivity =
        .ok (builder.messages cycleContext recentActivity fun planType =>
          (lastPlan world.stored agentId planType).map (PlanRecord.told isoformat)) := by
  intro world
  have hserial : MemoryWorld.Serial world :=
    Runs.final_of_along _ (fun _ event h => h.statement (MemoryWorld.step_statement event))
      (MemoryWorld.serial_start agents cycles) hrun
  obtain ⟨memory, hmemory, hplans⟩ := hserial.stored
  obtain ⟨unique, hagent, hlast⟩ := PrivateAgentMemory.plans_of_addAll hmemory agentId
  have hperm : ((world.tables.activePlans agentId).insertionSort fun first second =>
      planRank first ≤ planRank second).Perm (memory.plans agentId) := by
    rw [hplans agentId]
    exact List.perm_insertionSort _ _
  refine ⟨memory, _, hmemory, if_neg (not_not.mpr rfl), hperm, ?_⟩
  have unique' := (hperm.map PlanRecord.planType).nodup_iff.mpr unique
  rw [PromptBuilder.build_eq_ok (fun plan hplan => hagent plan (hperm.mem_iff.mp hplan)) unique']
  simp only [KeyedList.lookup_eq_of_perm hperm unique', hlast]

namespace Sample

/-- A text that digests nothing. -/
def plainTexts : JsonTexts := ⟨fun _ => none, fun _ => digest⟩

def longTermPlan (id : String) : PlanRecord where
  id := id
  agentId := "agent"
  planType := .longTerm
  content := id
  dueAt := none
  createdAt := moment

/-- An append with all its statements. -/
def appendsPlan (id : String) : List (MemoryEvent 1) :=
  .appendPlan 0 (longTermPlan id) "agent" "cycle" :: List.replicate 4 (.advance 0)

def promptBuilder : PromptBuilder := ⟨"Trade.", by decide, by decide⟩

end Sample

/-- A plan that has replaced another is told. -/
theorem prompt_plans_replaced : ∃ told,
    (Runs.final (MemoryWorld.step Sample.plainTexts 100) (.start ["agent"] ["cycle"])
      (Sample.appendsPlan "first" ++ Sample.appendsPlan "second")).tables.readPlans
        "agent" "agent" = .ok told ∧
      Sample.promptBuilder.build (fun _ => "now") "agent" .null told .null =
        .ok (Sample.promptBuilder.messages .null .null fun planType =>
          (match planType with
          | .longTerm => some (Sample.longTermPlan "second")
          | .nextCycle => none).map (PlanRecord.told fun _ => "now")) := by
  obtain ⟨_, told, -, hread, -, hbuilt⟩ := prompt_plans Sample.plainTexts 100 ["agent"] ["cycle"]
    (Sample.appendsPlan "first" ++ Sample.appendsPlan "second") (by decide +kernel)
    (fun _ => "now") Sample.promptBuilder "agent" .null .null
  refine ⟨told, hread, hbuilt.trans (congrArg _ (congrArg _ (funext fun planType => ?_)))⟩
  cases planType with
  | longTerm => rfl
  | nextCycle => rfl

-- Two workers that append at once leave both plans active.
example :
    ((Runs.final (MemoryWorld.step Sample.plainTexts 100)
      (.start ["agent"] ["cycle"] : MemoryWorld 2)
      (.appendPlan 0 (Sample.longTermPlan "first") "agent" "cycle" ::
        .appendPlan 1 (Sample.longTermPlan "second") "agent" "cycle" ::
        (List.replicate 4 [.advance 0, .advance 1]).flatten)).tables.activePlans
          "agent").length = 2 := by
  decide +kernel

end VTrade
