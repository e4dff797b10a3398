/-
# The beliefs of the agents

The count of an agent's beliefs and the insertion of another are two statements, but the lock on
the agent's row is held from before the first until the transaction is committed.  So the worker
that holds it has room for its belief, whatever others do meanwhile, and no agent ever has more
active beliefs than are configured.  What an agent reads are the beliefs that the private memory
keeps of it, without those that it has given up.
-/

import VTrade.AgentMemory

namespace VTrade

/-! ## Tables -/

namespace MemoryTables

variable {tables : MemoryTables}

theorem belief?_eq_none_iff {id : String} :
    tables.belief? id = none ↔ ∀ row ∈ tables.beliefs, row.belief.id ≠ id := by
  simp [belief?]

theorem activeBeliefs_insertBelief (row : BeliefRow) (hactive : row.active = true)
    (agentId : String) :
    (tables.insertBelief row).activeBeliefs agentId =
      tables.activeBeliefs agentId ++
        if row.belief.agentId = agentId then [row.belief] else [] := by
  unfold activeBeliefs insertBelief
  dsimp only
  rw [List.filter_append, List.map_append, List.filter_singleton, hactive]
  by_cases hagent : row.belief.agentId = agentId <;> simp [hagent]

theorem belief?_insertBelief (row : BeliefRow) {id : String} :
    (tables.insertBelief row).belief? id = none ↔
      tables.belief? id = none ∧ row.belief.id ≠ id := by
  simp [belief?_eq_none_iff, insertBelief, or_imp, forall_and]

/-- The row that giving up a belief makes of a row. -/
theorem mem_deactivate {agentId beliefId : String} {row : BeliefRow} :
    row ∈ (tables.deactivate agentId beliefId).beliefs ↔ ∃ old ∈ tables.beliefs,
      (if old.belief.id = beliefId ∧ old.belief.agentId = agentId then
        { old with active := false } else old) = row :=
  List.mem_map

theorem ids_deactivate (agentId beliefId : String) :
    (tables.deactivate agentId beliefId).beliefs.map (fun row => row.belief.id) =
      tables.beliefs.map fun row => row.belief.id := by
  unfold deactivate
  rw [List.map_map]
  refine List.map_congr_left fun row _ => ?_
  dsimp only [Function.comp_apply]
  split <;> rfl

/-- What an agent gives up makes room. -/
theorem length_activeBeliefs_deactivate_le (agentId beliefId other : String) :
    ((tables.deactivate agentId beliefId).activeBeliefs other).length ≤
      (tables.activeBeliefs other).length := by
  unfold deactivate activeBeliefs
  rw [List.length_map, List.length_map, ← List.countP_eq_length_filter,
    ← List.countP_eq_length_filter, List.countP_map]
  refine List.countP_mono_left fun row _ hrow => ?_
  dsimp only [Function.comp_apply] at hrow
  split at hrow
  · simp at hrow
  · exact hrow

end MemoryTables

/-! ## Room for a belief -/

namespace MemoryWorld

variable {n : ℕ} {texts : JsonTexts} {maximum : ℕ} {world : MemoryWorld n} {worker : Fin n}

/-- The lock on an agent is held by one worker, and a worker that has counted the beliefs of its
agent has room for another. -/
structure Orderly (maximum : ℕ) (world : MemoryWorld n) : Prop where
  exclusive : ∀ first second agentId, (world.stages first).lock? = some agentId →
    (world.stages second).lock? = some agentId → first = second
  within : ∀ agentId, (world.tables.activeBeliefs agentId).length ≤ maximum
  room : ∀ worker belief, (world.stages worker).counted? = some belief →
    (world.tables.activeBeliefs belief.agentId).length < maximum
  unique : (world.tables.beliefs.map fun row => row.belief.id).Nodup
  fresh : ∀ worker belief, (world.stages worker).inserted? = some belief →
    world.tables.belief? belief.id = none
  apart : ∀ first second belief belief', (world.stages first).inserted? = some belief →
    (world.stages second).inserted? = some belief' → belief.id = belief'.id → first = second

theorem orderly_start (maximum : ℕ) (agents cycles : List String) :
    Orderly maximum (start agents cycles : MemoryWorld n) where
  exclusive := by
    rintro _ _ _ ⟨⟩
  within := fun _ => Nat.zero_le maximum
  room := by
    rintro _ _ ⟨⟩
  unique := List.nodup_nil
  fresh := by
    rintro _ _ ⟨⟩
  apart := by
    rintro _ _ _ _ ⟨⟩

namespace Orderly

/-- The holder of a lock is the only one. -/
theorem not_locked (h : Orderly maximum world) {agentId : String}
    (hheld : (world.stages worker).lock? = some agentId) : ¬ world.Locked worker agentId := by
  rintro ⟨other, hother, hlock⟩
  exact hother (h.exclusive other worker agentId hlock hheld)

/-- The plans and the history do not matter. -/
theorem of_beliefs {other : MemoryWorld n} (h : Orderly maximum world)
    (hbeliefs : other.tables.beliefs = world.tables.beliefs)
    (hstages : other.stages = world.stages) : Orderly maximum other := by
  obtain ⟨exclusive, within, room, unique, fresh, apart⟩ := h
  unfold MemoryTables.activeBeliefs at within room
  unfold MemoryTables.belief? at fresh
  rw [← hbeliefs] at unique
  simp only [← hbeliefs, ← hstages] at exclusive within room fresh apart
  exact ⟨exclusive, within, room, unique, fresh, apart⟩

/-- A worker may lock an agent that no other has locked, and insert a belief that is new. -/
theorem move (h : Orderly maximum world) {stage : MemoryStage}
    (hlock : ∀ agentId, stage.lock? = some agentId → ¬ world.Locked worker agentId)
    (hroom : ∀ belief, stage.counted? = some belief →
      (world.tables.activeBeliefs belief.agentId).length < maximum)
    (hnew : ∀ belief, stage.inserted? = some belief →
      world.tables.belief? belief.id = none ∧ ¬ world.BeliefInFlight worker belief.id) :
    Orderly maximum (world.move worker stage) where
  exclusive first second agentId hfirst hsecond := by
    simp only [MemoryWorld.move, Function.update_apply] at hfirst hsecond
    split at hfirst
    next hworker =>
      split at hsecond
      next hworker' => exact hworker.trans hworker'.symm
      next hother => exact absurd ⟨second, hother, hsecond⟩ (hlock agentId hfirst)
    next hother =>
      split at hsecond
      · exact absurd ⟨first, hother, hfirst⟩ (hlock agentId hsecond)
      · exact h.exclusive first second agentId hfirst hsecond
  within := h.within
  room other belief hcounted := by
    simp only [MemoryWorld.move, Function.update_apply] at hcounted
    split at hcounted
    · exact hroom belief hcounted
    · exact h.room other belief hcounted
  unique := h.unique
  fresh other belief hinserted := by
    simp only [MemoryWorld.move, Function.update_apply] at hinserted
    split at hinserted
    · exact (hnew belief hinserted).1
    · exact h.fresh other belief hinserted
  apart first second belief belief' hfirst hsecond hid := by
    simp only [MemoryWorld.move, Function.update_apply] at hfirst hsecond
    split at hfirst
    next hworker =>
      split at hsecond
      next hworker' => exact hworker.trans hworker'.symm
      next hother =>
        exact absurd ⟨second, hother, belief', hsecond, hid.symm⟩ (hnew belief hfirst).2
    next hother =>
      split at hsecond
      · exact absurd ⟨first, hother, belief, hfirst, hid⟩ (hnew belief' hsecond).2
      · exact h.apart first second belief belief' hfirst hsecond hid

/-- A worker may let its lock go. -/
theorem leave (h : Orderly maximum world) {stage : MemoryStage} (hlock : stage.lock? = none) :
    Orderly maximum (world.move worker stage) := by
  have hcounted (belief : BeliefRecord) : stage.counted? ≠ some belief := by
    intro hcounted
    rw [MemoryStage.lock?_of_counted? hcounted] at hlock
    cases hlock
  refine h.move (fun agentId hheld => ?_) (fun belief hheld => ?_) fun belief hheld => ?_
  · rw [hlock] at hheld
    cases hheld
  · exact absurd hheld (hcounted belief)
  · exact absurd (MemoryStage.counted?_of_inserted? hheld) (hcounted belief)

/-- The belief of a worker that is about to commit comes in. -/
theorem commit (h : Orderly maximum world) {belief : BeliefRecord} {cycleId : String}
    (hstage : world.stages worker = .belief .committing belief cycleId) (row : BeliefRow)
    (hrow : row.belief = belief) (hactive : row.active = true) (record : MemoryRecord) :
    Orderly maximum (world.commit worker (world.tables.insertBelief row) record).1 := by
  obtain rfl := hrow
  have hidle : Orderly maximum (world.move worker .idle) := h.leave rfl
  have hheld : (world.stages worker).counted? = some row.belief := by rw [hstage]; rfl
  have hinserted : (world.stages worker).inserted? = some row.belief := by rw [hstage]; rfl
  have hothers (other : Fin n) (item : BeliefRecord)
      (hcounted : ((world.move worker .idle).stages other).counted? = some item) :
      row.belief.agentId ≠ item.agentId := by
    intro hagent
    obtain ⟨hother, hcounted⟩ := of_idle MemoryStage.counted? rfl hcounted
    refine hother (h.exclusive other worker item.agentId (MemoryStage.lock?_of_counted? hcounted)
      ?_)
    rw [← hagent]
    exact MemoryStage.lock?_of_counted? hheld
  refine ⟨hidle.exclusive, fun agentId => ?_, fun other item hcounted => ?_, ?_,
    fun other item hitem => ?_, hidle.apart⟩
  · change ((world.tables.insertBelief row).activeBeliefs agentId).length ≤ maximum
    rw [MemoryTables.activeBeliefs_insertBelief row hactive, List.length_append]
    split
    next hagent =>
      subst hagent
      exact h.room worker row.belief hheld
    · exact h.within agentId
  · change ((world.tables.insertBelief row).activeBeliefs item.agentId).length < maximum
    rw [MemoryTables.activeBeliefs_insertBelief row hactive, if_neg (hothers other item hcounted),
      List.append_nil]
    exact hidle.room other item hcounted
  · change ((world.tables.beliefs ++ [row]).map fun row => row.belief.id).Nodup
    rw [List.map_append, List.map_singleton, List.nodup_append]
    refine ⟨h.unique, List.nodup_singleton _, ?_⟩
    rintro _ hold _ hnew rfl
    obtain ⟨old, hmem, hid⟩ := List.mem_map.mp hold
    exact MemoryTables.belief?_eq_none_iff.mp (h.fresh worker row.belief hinserted) old hmem
      (hid.trans (List.mem_singleton.mp hnew))
  · refine (MemoryTables.belief?_insertBelief row).mpr ⟨hidle.fresh other item hitem, ?_⟩
    intro hid
    obtain ⟨hother, hitem⟩ := of_idle MemoryStage.inserted? rfl hitem
    exact hother (h.apart other worker item row.belief hitem hinserted hid.symm)

/-- A belief is given up. -/
theorem deactivate (h : Orderly maximum world) (agentId beliefId : String) :
    Orderly maximum { world with tables := world.tables.deactivate agentId beliefId } := by
  have hlength := @MemoryTables.length_activeBeliefs_deactivate_le world.tables agentId beliefId
  refine ⟨h.exclusive, fun other => (hlength other).trans (h.within other),
    fun other item hcounted => (hlength item.agentId).trans_lt (h.room other item hcounted), ?_,
    fun other item hinserted => ?_, h.apart⟩
  · rw [MemoryTables.ids_deactivate]
    exact h.unique
  · rw [MemoryTables.belief?_eq_none_iff]
    intro row hrow
    obtain ⟨old, hold, rfl⟩ := MemoryTables.mem_deactivate.mp hrow
    have hne := MemoryTables.belief?_eq_none_iff.mp (h.fresh other item hinserted) old hold
    split
    · exact hne
    · exact hne

/-- A statement keeps it so. -/
theorem statement (h : Orderly maximum world) {event : MemoryEvent n} {after : MemoryWorld n}
    {answer : Option MemoryAnswer}
    (hstatement : Statement texts maximum world event after answer) : Orderly maximum after := by
  cases hstatement with
  | stays | finds | findsPlan => exact h
  | leaves _ worker stage _ hrecord _ => exact h.leave (MemoryStage.lock?_of_record? hrecord)
  | begins => exact h.leave rfl
  | locks _ worker belief cycleId hstage hfree =>
      refine h.move (fun agentId hheld => ?_) (fun belief hheld => ?_) fun belief hheld => ?_
      · cases hheld
        exact hfree
      · cases hheld
      · cases hheld
  | counts _ worker belief cycleId hstage hroom =>
      refine h.move (fun agentId hheld => ?_) (fun belief hheld => ?_) fun belief hheld => ?_
      · cases hheld
        exact h.not_locked (by rw [hstage]; rfl)
      · cases hheld
        exact hroom
      · cases hheld
  | inserts _ worker belief cycleId hstage hfree hnew =>
      refine h.move (fun agentId hheld => ?_) (fun belief hheld => ?_) fun belief hheld => ?_
      · cases hheld
        exact h.not_locked (by rw [hstage]; rfl)
      · cases hheld
        exact h.room worker belief (by rw [hstage]; rfl)
      · cases hheld
        exact ⟨hnew, hfree⟩
  | commits _ worker belief cycleId hstage => exact h.commit hstage _ rfl rfl _
  | beginsPlan | findsPlans | archives | insertsPlan => exact h.leave rfl
  | commitsPlan _ worker plan cycleId archived hstage =>
      have hidle : Orderly maximum (world.move worker .idle) := h.leave rfl
      exact hidle.of_beliefs rfl rfl
  | deactivates _ agentId beliefId row hrow hid => exact h.deactivate agentId beliefId
  | alreadyInactive => exact h.leave rfl

end Orderly

/-! ## What the calls have answered -/

/-- An agent has been told that it has given up a belief. -/
def givenUp (answers : List (Option MemoryAnswer)) (agentId beliefId : String) : Bool :=
  answers.any fun answer => answer = some (.deleted agentId beliefId false) ∨
    answer = some (.deleted agentId beliefId true)

theorem givenUp_concat (answers : List (Option MemoryAnswer)) (answer : Option MemoryAnswer)
    (agentId beliefId : String) :
    givenUp (answers ++ [answer]) agentId beliefId =
      (givenUp answers agentId beliefId || givenUp [answer] agentId beliefId) :=
  List.any_append

theorem givenUp_deleted {agentId beliefId agentId' beliefId' : String} {already : Bool} :
    givenUp [some (.deleted agentId beliefId already)] agentId' beliefId' = true ↔
      agentId' = agentId ∧ beliefId' = beliefId := by
  rw [givenUp, List.any_eq_true]
  constructor
  · rintro ⟨answer, hanswer, hdeleted⟩
    obtain rfl := List.mem_singleton.mp hanswer
    rcases of_decide_eq_true hdeleted with h | h
    · cases h
      exact ⟨rfl, rfl⟩
    · cases h
      exact ⟨rfl, rfl⟩
  · rintro ⟨rfl, rfl⟩
    refine ⟨_, List.mem_singleton_self _, decide_eq_true ?_⟩
    cases already with
    | false => exact .inl rfl
    | true => exact .inr rfl

/-- The beliefs of the tables are those that have been stored, the active ones those that have not
been given up, and every append that has returned is among them. -/
structure Recorded (texts : JsonTexts) (answers : List (Option MemoryAnswer))
    (world : MemoryWorld n) : Prop where
  fingerprints : ∀ row ∈ world.tables.beliefs, row.fingerprint = row.belief.fingerprint texts
  active : ∀ row ∈ world.tables.beliefs,
    row.active = !givenUp answers row.belief.agentId row.belief.id
  known : ∀ agentId beliefId, givenUp answers agentId beliefId = true →
    ∃ row ∈ world.tables.beliefs, row.belief.id = beliefId ∧ row.belief.agentId = agentId
  returned : ∀ belief, some (.appended (.belief belief)) ∈ answers →
    ∃ row ∈ world.tables.beliefs, row.belief.id = belief.id ∧
      row.belief.fingerprint texts = belief.fingerprint texts
  stored : ∃ memory, PrivateAgentMemory.empty.addAll world.stored = .ok memory ∧
    ∀ agentId, memory.beliefs agentId =
      (world.tables.beliefs.filter fun row => row.belief.agentId = agentId).map BeliefRow.belief

namespace Recorded

variable {answers : List (Option MemoryAnswer)} {after : MemoryWorld n}

/-- An answer that neither appends nor gives up a belief changes nothing. -/
theorem answer (h : Recorded texts answers world) {answer : Option MemoryAnswer}
    (hdeleted : ∀ agentId beliefId, givenUp [answer] agentId beliefId = true →
      givenUp answers agentId beliefId = true)
    (hreturned : ∀ belief, answer = some (.appended (.belief belief)) →
      ∃ row ∈ world.tables.beliefs, row.belief.id = belief.id ∧
        row.belief.fingerprint texts = belief.fingerprint texts)
    (hbeliefs : after.tables.beliefs = world.tables.beliefs)
    (hstored : after.stored = world.stored ∨ ∃ plan, after.stored = world.stored ++ [.plan plan]) :
    Recorded texts (answers ++ [answer]) after := by
  have hsame (agentId beliefId : String) :
      givenUp (answers ++ [answer]) agentId beliefId = givenUp answers agentId beliefId := by
    rw [givenUp_concat, Bool.or_eq_left_iff_imp]
    exact hdeleted agentId beliefId
  obtain ⟨fingerprints, active, known, returned, memory, hmemory, hmemories⟩ := h
  rw [← hbeliefs] at fingerprints active known returned hreturned
  simp only [← hbeliefs] at hmemories
  refine ⟨fingerprints, fun row hrow => ?_, fun agentId beliefId => ?_, fun belief hmem => ?_, ?_⟩
  · rw [hsame]
    exact active row hrow
  · rw [hsame]
    exact known agentId beliefId
  · rcases List.mem_append.mp hmem with hmem | hmem
    · exact returned belief hmem
    · exact hreturned belief (List.mem_singleton.mp hmem).symm
  · rcases hstored with hstored | ⟨plan, hstored⟩
    · exact ⟨memory, by rw [hstored]; exact hmemory, hmemories⟩
    · rw [hstored]
      exact ⟨_, (PrivateAgentMemory.addAll_concat hmemory _).trans
        (PrivateAgentMemory.add_plan plan), hmemories⟩

/-- A call that has not returned has no answer to remember. -/
theorem unanswered (h : Recorded texts answers world) {answer : Option MemoryAnswer}
    (hunanswered : Unanswered answer) (hbeliefs : after.tables.beliefs = world.tables.beliefs)
    (hstored : after.stored = world.stored) : Recorded texts (answers ++ [answer]) after := by
  refine h.answer (fun agentId beliefId hgiven => ?_) (fun belief hanswer => ?_) hbeliefs
    (.inl hstored)
  · obtain ⟨given, hmem, hdeleted⟩ := List.any_eq_true.mp hgiven
    obtain rfl := List.mem_singleton.mp hmem
    rcases of_decide_eq_true hdeleted with rfl | rfl
    · obtain ⟨_, hraised⟩ := hunanswered _ rfl
      cases hraised
    · obtain ⟨_, hraised⟩ := hunanswered _ rfl
      cases hraised
  · obtain ⟨_, hraised⟩ := hunanswered _ hanswer
    cases hraised

/-- A belief that is committed. -/
theorem insert (h : Recorded texts answers world) {belief : BeliefRecord}
    (hnew : world.tables.belief? belief.id = none) (cycleId : String) :
    Recorded texts (answers ++ [some (.appended (.belief belief))])
      (world.commit worker
        (world.tables.insertBelief ⟨belief, cycleId, belief.fingerprint texts, true⟩)
        (.belief belief)).1 := by
  have hne := MemoryTables.belief?_eq_none_iff.mp hnew
  have hsame (agentId beliefId : String) :
      givenUp (answers ++ [some (.appended (.belief belief))]) agentId beliefId =
        givenUp answers agentId beliefId := by
    rw [givenUp_concat, Bool.or_eq_left_iff_imp]
    intro hgiven
    simp [givenUp] at hgiven
  have hkept {row : BeliefRow} (hrow : row ∈ world.tables.beliefs) :
      row ∈ world.tables.beliefs ++
        [(⟨belief, cycleId, belief.fingerprint texts, true⟩ : BeliefRow)] :=
    List.mem_append_left _ hrow
  refine ⟨fun row hrow => ?_, fun row hrow => ?_, fun agentId beliefId hgiven => ?_,
    fun item hmem => ?_, ?_⟩
  · rcases List.mem_append.mp hrow with hrow | hrow
    · exact h.fingerprints row hrow
    · rw [List.mem_singleton.mp hrow]
  · rw [hsame]
    rcases List.mem_append.mp hrow with hrow | hrow
    · exact h.active row hrow
    · rw [List.mem_singleton.mp hrow, eq_comm, Bool.not_eq_true', Bool.eq_false_iff]
      intro hgiven
      obtain ⟨old, hold, hid, -⟩ := h.known _ _ hgiven
      exact hne old hold hid
  · rw [hsame] at hgiven
    obtain ⟨row, hrow, hid⟩ := h.known agentId beliefId hgiven
    exact ⟨row, hkept hrow, hid⟩
  · rcases List.mem_append.mp hmem with hmem | hmem
    · obtain ⟨row, hrow, hid⟩ := h.returned item hmem
      exact ⟨row, hkept hrow, hid⟩
    · cases List.mem_singleton.mp hmem
      exact ⟨_, List.mem_append_right _ (List.mem_singleton_self _), rfl, rfl⟩
  · obtain ⟨memory, hmemory, hbeliefs⟩ := h.stored
    refine ⟨_, (PrivateAgentMemory.addAll_concat hmemory _).trans
      (PrivateAgentMemory.add_belief belief), fun agentId => ?_⟩
    change Function.update memory.beliefs belief.agentId _ agentId =
      ((world.tables.beliefs ++ [(⟨belief, cycleId, _, true⟩ : BeliefRow)]).filter _).map _
    rw [List.filter_append, List.map_append, List.filter_singleton, ← hbeliefs agentId]
    by_cases hagent : belief.agentId = agentId
    · subst hagent
      simp
    · rw [Function.update_of_ne (Ne.symm hagent)]
      simp [hagent]

/-- A belief that is given up. -/
theorem deactivate (h : Recorded texts answers world) {agentId beliefId : String}
    {row : BeliefRow} (hrow : row ∈ world.tables.beliefs)
    (hid : row.belief.id = beliefId ∧ row.belief.agentId = agentId) :
    Recorded texts (answers ++ [some (.deleted agentId beliefId false)])
      { world with tables := world.tables.deactivate agentId beliefId } := by
  have hkept {old : BeliefRow} (hold : old ∈ world.tables.beliefs) :
      ∃ new ∈ (world.tables.deactivate agentId beliefId).beliefs, new.belief = old.belief := by
    refine ⟨_, MemoryTables.mem_deactivate.mpr ⟨old, hold, rfl⟩, ?_⟩
    split <;> rfl
  refine ⟨fun new hnew => ?_, fun new hnew => ?_, fun other otherId hgiven => ?_,
    fun belief hmem => ?_, ?_⟩
  · obtain ⟨old, hold, rfl⟩ := MemoryTables.mem_deactivate.mp hnew
    have hfingerprint := h.fingerprints old hold
    split
    · exact hfingerprint
    · exact hfingerprint
  · obtain ⟨old, hold, rfl⟩ := MemoryTables.mem_deactivate.mp hnew
    rw [givenUp_concat]
    split
    next hsame =>
      have hgiven : givenUp [some (.deleted agentId beliefId false)] old.belief.agentId
          old.belief.id = true :=
        givenUp_deleted.mpr ⟨hsame.2, hsame.1⟩
      simp [hgiven]
    next hother =>
      have hgiven : givenUp [some (.deleted agentId beliefId false)] old.belief.agentId
          old.belief.id = false := by
        rw [Bool.eq_false_iff]
        intro hgiven
        obtain ⟨hagent, hold⟩ := givenUp_deleted.mp hgiven
        exact hother ⟨hold, hagent⟩
      rw [hgiven, Bool.or_false]
      exact h.active old hold
  · rw [givenUp_concat, Bool.or_eq_true] at hgiven
    rcases hgiven with hgiven | hgiven
    · obtain ⟨old, hold, hold'⟩ := h.known other otherId hgiven
      obtain ⟨new, hnew, hbelief⟩ := hkept hold
      exact ⟨new, hnew, by rw [hbelief]; exact hold'⟩
    · obtain ⟨rfl, rfl⟩ := givenUp_deleted.mp hgiven
      obtain ⟨new, hnew, hbelief⟩ := hkept hrow
      exact ⟨new, hnew, by rw [hbelief]; exact hid⟩
  · rcases List.mem_append.mp hmem with hmem | hmem
    · obtain ⟨old, hold, hold'⟩ := h.returned belief hmem
      obtain ⟨new, hnew, hbelief⟩ := hkept hold
      exact ⟨new, hnew, by rw [hbelief]; exact hold'⟩
    · cases List.mem_singleton.mp hmem
  · obtain ⟨memory, hmemory, hbeliefs⟩ := h.stored
    refine ⟨memory, hmemory, fun other => (hbeliefs other).trans ?_⟩
    have hsame (old : BeliefRow) :
        (if old.belief.id = beliefId ∧ old.belief.agentId = agentId then
          { old with active := false } else old).belief = old.belief := by
      split <;> rfl
    unfold MemoryTables.deactivate
    rw [List.filter_map, List.map_map]
    have hagents : ((fun row : BeliefRow => decide (row.belief.agentId = other)) ∘ fun row =>
        if row.belief.id = beliefId ∧ row.belief.agentId = agentId then
          { row with active := false } else row) =
        fun row => decide (row.belief.agentId = other) :=
      funext fun old => by rw [Function.comp_apply, hsame old]
    rw [hagents]
    exact List.map_congr_left fun old _ => (hsame old).symm

/-- A statement keeps it so. -/
theorem statement (h : Recorded texts answers world) (horderly : Orderly maximum world)
    {event : MemoryEvent n} {answer : Option MemoryAnswer}
    (hstatement : Statement texts maximum world event after answer) :
    Recorded texts (answers ++ [answer]) after := by
  cases hstatement with
  | stays _ _ hunanswered => exact h.unanswered hunanswered rfl rfl
  | finds _ belief row hrow hid hfingerprint =>
      refine h.answer (fun agentId beliefId hgiven => ?_) (fun item hitem => ?_) rfl (.inl rfl)
      · simp [givenUp] at hgiven
      · cases hitem
        exact ⟨row, hrow, hid, by rw [← hfingerprint, h.fingerprints row hrow]⟩
  | findsPlan _ plan row hrow hid hfingerprint =>
      refine h.answer (fun agentId beliefId hgiven => ?_) (fun item hitem => ?_) rfl (.inl rfl)
      · simp [givenUp] at hgiven
      · cases hitem
  | leaves _ worker stage _ hrecord hunanswered => exact h.unanswered hunanswered rfl rfl
  | begins | locks | counts | inserts | beginsPlan | findsPlans | archives | insertsPlan =>
      exact h.unanswered unanswered_none rfl rfl
  | commits _ worker belief cycleId hstage =>
      exact h.insert (horderly.fresh worker belief (by rw [hstage]; rfl)) cycleId
  | commitsPlan _ worker plan cycleId archived hstage =>
      refine h.answer (fun agentId beliefId hgiven => ?_) (fun item hitem => ?_) rfl
        (.inr ⟨plan, rfl⟩)
      · simp [givenUp] at hgiven
      · cases hitem
  | deactivates _ agentId beliefId row hrow hid => exact h.deactivate hrow hid
  | alreadyInactive _ worker agentId beliefId row hrow hid hinactive =>
      refine h.answer (fun other otherId hgiven => ?_) (fun item hitem => ?_) rfl (.inl rfl)
      · obtain ⟨rfl, rfl⟩ := givenUp_deleted.mp hgiven
        have hactive := h.active row hrow
        rw [hinactive, hid.1, hid.2] at hactive
        simpa using hactive.symm
      · cases hitem

end Recorded

/-! ## Who has appended what -/

/-- A record that has been appended by its own agent. -/
def Appended (events : List (MemoryEvent n)) : MemoryRecord → Prop
  | .belief belief => ∃ worker cycleId,
      .appendBelief worker belief belief.agentId cycleId ∈ events
  | .plan plan => ∃ worker cycleId, .appendPlan worker plan plan.agentId cycleId ∈ events

theorem Appended.append {events : List (MemoryEvent n)} {record : MemoryRecord}
    (h : Appended events record) (later : List (MemoryEvent n)) :
    Appended (events ++ later) record := by
  cases record with
  | belief belief =>
      obtain ⟨worker, cycleId, hevent⟩ := h
      exact ⟨worker, cycleId, List.mem_append_left _ hevent⟩
  | plan plan =>
      obtain ⟨worker, cycleId, hevent⟩ := h
      exact ⟨worker, cycleId, List.mem_append_left _ hevent⟩

/-- Everything that is stored or on its way has been appended by its own agent. -/
structure Owned (events : List (MemoryEvent n)) (world : MemoryWorld n) : Prop where
  stages : ∀ worker record, (world.stages worker).record? = some record → Appended events record
  stored : ∀ record ∈ world.stored, Appended events record

namespace Owned

variable {events : List (MemoryEvent n)} {event : MemoryEvent n} {after : MemoryWorld n}

theorem later (h : Owned events world) (event : MemoryEvent n) : Owned (events ++ [event]) world :=
  ⟨fun worker record hrecord => (h.stages worker record hrecord).append _,
    fun record hmem => (h.stored record hmem).append _⟩

theorem move (h : Owned events world) {stage : MemoryStage}
    (hstage : ∀ record, stage.record? = some record → Appended events record) :
    Owned events (world.move worker stage) := by
  refine ⟨fun other record hrecord => ?_, h.stored⟩
  simp only [MemoryWorld.move, Function.update_apply] at hrecord
  split at hrecord
  · exact hstage record hrecord
  · exact h.stages other record hrecord

theorem commit (h : Owned events world) {record : MemoryRecord}
    (hstage : (world.stages worker).record? = some record) (tables : MemoryTables) :
    Owned events (world.commit worker tables record).1 := by
  have hidle : Owned events (world.move worker .idle) := h.move (by rintro _ ⟨⟩)
  refine ⟨hidle.stages, fun other hother => ?_⟩
  rcases List.mem_append.mp hother with hother | hother
  · exact h.stored other hother
  · rw [List.mem_singleton.mp hother]
    exact h.stages worker record hstage

/-- A statement keeps it so. -/
theorem statement (h : Owned events world) {answer : Option MemoryAnswer}
    (hstatement : Statement texts maximum world event after answer) :
    Owned (events ++ [event]) after := by
  have hlater := h.later event
  have hgoes {worker : Fin n} {stage : MemoryStage}
      (hsame : stage.record? = (world.stages worker).record?) :
      Owned (events ++ [event]) (world.move worker stage) :=
    hlater.move fun record hrecord => hlater.stages worker record (hsame ▸ hrecord)
  cases hstatement with
  | stays | finds | findsPlan => exact hlater
  | leaves _ worker stage _ hrecord _ =>
      exact hlater.move fun record hstage => by
        rw [hrecord] at hstage
        cases hstage
  | begins worker belief cycleId hstage =>
      refine hlater.move fun record hrecord => ?_
      cases hrecord
      exact ⟨worker, cycleId, List.mem_append_right _ (List.mem_singleton_self _)⟩
  | locks _ worker belief cycleId hstage hfree => exact hgoes (by rw [hstage]; rfl)
  | counts _ worker belief cycleId hstage hroom => exact hgoes (by rw [hstage]; rfl)
  | inserts _ worker belief cycleId hstage hfree hnew => exact hgoes (by rw [hstage]; rfl)
  | commits _ worker belief cycleId hstage => exact hlater.commit (by rw [hstage]; rfl) _
  | beginsPlan worker plan cycleId hstage =>
      refine hlater.move fun record hrecord => ?_
      cases hrecord
      exact ⟨worker, cycleId, List.mem_append_right _ (List.mem_singleton_self _)⟩
  | findsPlans _ worker plan cycleId hstage => exact hgoes (by rw [hstage]; rfl)
  | archives _ worker plan cycleId found hstage => exact hgoes (by rw [hstage]; rfl)
  | insertsPlan _ worker plan cycleId archived hstage hfree hnew =>
      exact hgoes (by rw [hstage]; rfl)
  | commitsPlan _ worker plan cycleId archived hstage => exact hlater.commit (by rw [hstage]; rfl) _
  | deactivates _ agentId beliefId row hrow hid => exact ⟨hlater.stages, hlater.stored⟩
  | alreadyInactive => exact hlater.move (by rintro _ ⟨⟩)

end Owned

/-! ## Runs -/

/-- What the calls of a run answer. -/
def answers (texts : JsonTexts) (maximum : ℕ) (world : MemoryWorld n)
    (events : List (MemoryEvent n)) : List (Option MemoryAnswer) :=
  (Runs.trace (step texts maximum) world events).map Prod.snd

theorem run_recorded (texts : JsonTexts) (maximum : ℕ) (agents cycles : List String)
    (events : List (MemoryEvent n)) :
    Orderly maximum (Runs.final (step texts maximum) (start agents cycles) events) ∧
      Recorded texts (answers texts maximum (start agents cycles) events)
        (Runs.final (step texts maximum) (start agents cycles) events) ∧
      Owned events (Runs.final (step texts maximum) (start agents cycles) events) := by
  have hrun := Runs.final_invariant (step texts maximum)
    (fun seen world => Orderly maximum world ∧ Recorded texts (seen.map Prod.snd) world ∧
      Owned (seen.map Prod.fst) world)
    ⟨orderly_start maximum agents cycles, ?_, ?_⟩ (fun seen world event h => ?_) events
  · rw [Runs.trace_map_fst] at hrun
    exact hrun
  · refine ⟨?_, ?_, ?_, ?_, PrivateAgentMemory.empty, rfl, fun _ => rfl⟩
    · rintro _ ⟨⟩
    · rintro _ ⟨⟩
    · rintro _ _ ⟨⟩
    · rintro _ ⟨⟩
  · constructor
    · rintro _ _ ⟨⟩
    · rintro _ ⟨⟩
  · have hstatement : Statement texts maximum world event _ _ := step_statement event
    rw [List.map_append, List.map_append]
    exact ⟨h.1.statement hstatement, h.2.1.statement h.1 hstatement, h.2.2.statement hstatement⟩

end MemoryWorld

/-- The ranks of different beliefs differ. -/
theorem MemoryTables.beliefRank_nodup {tables : MemoryTables}
    (unique : (tables.beliefs.map fun row => row.belief.id).Nodup) (agentId : String) :
    (((tables.activeBeliefs agentId).map BeliefRecord.payload).map beliefRank).Nodup := by
  have hids : ((tables.activeBeliefs agentId).map fun belief => belief.id).Nodup := by
    unfold activeBeliefs
    rw [List.map_map]
    exact unique.sublist (List.filter_sublist.map _)
  rw [List.map_map]
  refine List.Nodup.of_map (fun rank => (ofLex rank).2) ?_
  rw [List.map_map]
  exact hids

/-- **Agents have room for their beliefs.**  However the statements of the workers interleave, no
agent has more active beliefs than are configured.  What it reads, the newest first, are the
beliefs that the private memory keeps of it after everything that has been stored, without those
that it was told it had given up.  What is stored has been appended by its own agent, and every
append that has returned has its belief there. -/
theorem agent_beliefs (texts : JsonTexts) (maximum : ℕ) (agents cycles : List String) {n : ℕ}
    (events : List (MemoryEvent n)) :
    let world : MemoryWorld n :=
      Runs.final (MemoryWorld.step texts maximum) (.start agents cycles) events
    let answers := MemoryWorld.answers texts maximum (.start agents cycles) events
    ∃ memory, PrivateAgentMemory.empty.addAll world.stored = .ok memory ∧
      (∀ agentId, (world.tables.activeBeliefs agentId).length ≤ maximum ∧
        ∃ told, world.tables.readBeliefs agentId agentId = .ok told ∧
          told.Perm (((memory.beliefs agentId).filter fun belief =>
            !MemoryWorld.givenUp answers agentId belief.id).map BeliefRecord.payload) ∧
          told.Pairwise fun first second =>
            MemoryTables.beliefRank second < MemoryTables.beliefRank first) ∧
      (∀ record ∈ world.stored, MemoryWorld.Appended events record) ∧
      ∀ belief, some (.appended (.belief belief)) ∈ answers →
        ∃ agentId, ∃ kept ∈ memory.beliefs agentId, kept.id = belief.id ∧
          kept.fingerprint texts = belief.fingerprint texts := by
  intro world answers
  obtain ⟨horderly, hrecorded, howned⟩ :=
    MemoryWorld.run_recorded texts maximum agents cycles events
  obtain ⟨memory, hmemory, hbeliefs⟩ := hrecorded.stored
  refine ⟨memory, hmemory, fun agentId => ⟨horderly.within agentId, _,
    if_neg (not_not.mpr rfl), ?_, ?_⟩, howned.stored, fun belief hreturned => ?_⟩
  · refine (Newest.descending_perm _).trans (.of_eq (congrArg _ ?_))
    rw [hbeliefs agentId, List.filter_map, List.filter_filter]
    refine congrArg _ (List.filter_congr fun row hrow => ?_)
    rw [Function.comp_apply, hrecorded.active row hrow]
    by_cases hagent : row.belief.agentId = agentId
    · simp [hagent, answers]
    · simp [hagent]
  · exact Newest.descending_pairwise (MemoryTables.beliefRank_nodup horderly.unique agentId)
  · obtain ⟨row, hrow, hid⟩ := hrecorded.returned belief hreturned
    refine ⟨row.belief.agentId, row.belief, ?_, hid⟩
    rw [hbeliefs]
    exact List.mem_map.mpr ⟨row, List.mem_filter.mpr ⟨hrow, decide_eq_true rfl⟩, rfl⟩

end VTrade
