/-
# Who executes the harness

The first generation of a cycle executes its harness, and no generation executes it twice.  A
generation that has recovered the cycle finds the checkpoint that it has begun itself, without
an error as long as it holds the cycle, and so does not execute; only when it has lost the cycle
to a later generation, which has refused and failed the cycle, may it find the marker that lets
it.
-/

import VTrade.HarnessReplays

namespace VTrade

/-! ## One process -/

/-- The stages that a process has before it, the present one first. -/
def Phase.pending : Phase → Option (List CycleStage)
  | .loading stages => some stages
  | .renewing stage later | .beginning stage later _ | .invoking stage later _ =>
      some (stage :: later)
  | .completing later run _ => some (run.stage :: later)
  | .failing _ => none

/-- The stages whose ports may still be asked. -/
def Phase.unasked : Phase → List CycleStage
  | .loading stages => stages
  | .renewing stage later | .beginning stage later _ | .invoking stage later _ => stage :: later
  | .completing later _ _ => later
  | .failing _ => []

/-- A process works on the cycle in the order of the stages, past the freeze only when the
cutoff is fixed, and asks for the harness only when its checkpoint has been begun. -/
structure Process.InOrder (tables : CycleTables) (cycleId : String) (process : Process) : Prop where
  cycle : process.claim.cycleId = cycleId
  ordered : ∀ stages ∈ process.phase.pending, stages <:+ stageOrder
  fixed : ∀ stages ∈ process.phase.pending, stages = stageOrder ∨ tables.CutoffFixed cycleId
  begun : ∀ later fingerprint, process.phase = .invoking .harness later fingerprint →
    (tables.stepRow cycleId .harness).isSome = true

/-- Two claims are of the same generation. -/
structure CycleClaim.SameGeneration (first second : CycleClaim) : Prop where
  cycle : first.cycleId = second.cycleId
  owner : first.leaseOwner = second.leaseOwner
  recovery : first.recovery = second.recovery

theorem CycleClaim.SameGeneration.refl (claim : CycleClaim) : claim.SameGeneration claim :=
  ⟨rfl, rfl, rfl⟩

theorem CycleClaim.SameGeneration.trans {first second third : CycleClaim}
    (h : first.SameGeneration second) (h' : second.SameGeneration third) :
    first.SameGeneration third :=
  ⟨h.cycle.trans h'.cycle, h.owner.trans h'.owner, h.recovery.trans h'.recovery⟩

variable {tables : CycleTables} {cycleId : String}

theorem Process.InOrder.mono {process : Process} {after : CycleTables}
    (h : process.InOrder tables cycleId) (hadvances : tables.Advances cycleId after) :
    process.InOrder after cycleId where
  cycle := h.cycle
  ordered := h.ordered
  fixed stages hmem := (h.fixed stages hmem).imp_right hadvances.cutoff
  begun later fingerprint hphase := hadvances.harness (h.begun later fingerprint hphase)

theorem Process.InOrder.failing {process : Process} {error : Raised}
    (hcycle : process.claim.cycleId = cycleId) : (process.failing error).InOrder tables cycleId where
  cycle := hcycle
  ordered _ hmem := by cases hmem
  fixed _ hmem := by cases hmem
  begun _ _ hphase := by cases hphase

theorem Process.InOrder.start {claim : CycleClaim} (hcycle : claim.cycleId = cycleId) :
    (Process.start claim).InOrder tables cycleId where
  cycle := hcycle
  ordered stages hmem := by
    obtain rfl := Option.some.inj hmem
    exact List.suffix_rfl
  fixed stages hmem := Or.inl (Option.some.inj hmem).symm
  begun _ _ hphase := by cases hphase

/-- What a step of a process leads to. -/
structure Advanced (cycleId : String) (before after : CycleTables) (process : Process)
    (next : Option Process) : Prop where
  tables : before.Advances cycleId after
  order : ∀ later ∈ next, later.InOrder after cycleId
  claim : ∀ later ∈ next, later.claim.SameGeneration process.claim
  unasked : ∀ later ∈ next, later.phase.unasked ⊆ process.phase.unasked

theorem Advanced.failing {process : Process} {after : CycleTables} {error : Raised}
    (hcycle : process.claim.cycleId = cycleId) (htables : tables.Advances cycleId after) :
    Advanced cycleId tables after process (some (process.failing error)) where
  tables := htables
  order := by
    rintro _ ⟨⟩
    exact .failing hcycle
  claim := by
    rintro _ ⟨⟩
    exact .refl _
  unasked := by
    rintro _ ⟨⟩
    exact List.nil_subset _

theorem Advanced.ended {process : Process} {after : CycleTables}
    (htables : tables.Advances cycleId after) :
    Advanced cycleId tables after process none where
  tables := htables
  order _ hmem := by cases hmem
  claim _ hmem := by cases hmem
  unasked _ hmem := by cases hmem

/-- A transaction after which the process goes on. -/
theorem Advanced.follow {process : Process} {after : CycleTables} {raised : Option Raised}
    {phase : Phase} (hcycle : process.claim.cycleId = cycleId)
    (htables : tables.Advances cycleId after)
    (horder : ({ process with phase := phase } : Process).InOrder after cycleId)
    (hunasked : phase.unasked ⊆ process.phase.unasked) :
    Advanced cycleId tables after process (some (process.follow raised phase)) := by
  cases raised with
  | some error => exact .failing hcycle htables
  | none =>
      constructor
      case tables => exact htables
      case order => rintro _ ⟨⟩; exact horder
      case claim => rintro _ ⟨⟩; exact .refl _
      case unasked => rintro _ ⟨⟩; exact hunasked

theorem loadStage_eq_some {stage : CycleStage} {result : StageResult stage}
    (h : tables.loadStage cycleId stage = .ok (some result)) :
    ∃ row, tables.stepRow cycleId stage = some row ∧ row.status = .completed := by
  unfold CycleTables.loadStage at h
  split at h
  · cases h
  next row hrow =>
    obtain ⟨hrow, hdone⟩ := Option.filter_eq_some_iff.mp hrow
    exact ⟨row, hrow, of_decide_eq_true hdone⟩

theorem sameGeneration_of_claimAfter {fromisoformat : String → Option Datetime} {claim : CycleClaim}
    {stage : CycleStage} {payload : JsonObject} {now : Instant} {after : CycleClaim}
    (h : claimAfter fromisoformat claim stage payload now = .ok after) :
    after.SameGeneration claim := by
  unfold claimAfter at h
  split at h
  · obtain ⟨cutoff, -, h⟩ := Checks.bind_eq_ok.mp h
    unfold CycleClaim.withCutoff at h
    split at h
    · cases h
      exact ⟨rfl, rfl, rfl⟩
    · cases h
  · cases h
    exact .refl _

/-- Past the first of some stages, the cutoff is fixed: it was before, or the first is the
freeze and has just been completed. -/
theorem fixed_later {stage : CycleStage} {later : List CycleStage} {after : CycleTables}
    (hfixed : stage :: later = stageOrder ∨ tables.CutoffFixed cycleId)
    (hkept : tables.CutoffFixed cycleId → after.CutoffFixed cycleId)
    (hfreeze : stage = .marketFreeze → after.CutoffFixed cycleId) :
    after.CutoffFixed cycleId := by
  rcases hfixed with horder | hfixed
  · exact hfreeze (List.cons.inj horder).1
  · exact hkept hfixed

section

variable {fromisoformat : String → Option Datetime} {sha256 : Json → Sha256} {leaseDuration : ℤ}

/-- Whatever the next step of a process meets, the checkpoints keep saying what they say, and
the process stays in order. -/
theorem Process.InOrder.advance {process : Process} (h : process.InOrder tables cycleId)
    (hevidence : tables.HarnessEvidence cycleId) (outside : Outside) :
    Advanced cycleId tables
      (process.advance fromisoformat sha256 leaseDuration tables outside).1 process
      (process.advance fromisoformat sha256 leaseDuration tables outside).2.1 := by
  have hcycle := h.cycle
  obtain ⟨claim, outputs, phase⟩ := process
  dsimp only at hcycle
  cases phase with
  | failing error =>
      unfold Process.advance
      dsimp only
      cases hdone : outside.transact (tables.failCycle claim outside.now outside.reason) with
      | error error => exact .ended (.refl tables)
      | ok done => exact .ended (CycleTables.failCycle_advances (Outside.transact_eq_ok hdone))
  | renewing stage later =>
      unfold Process.advance
      dsimp only
      cases hdone : outside.transact (tables.renewLease claim outside.now leaseDuration) with
      | error error => exact .failing hcycle (.refl tables)
      | ok done =>
          have hadvances : tables.Advances cycleId done.1 :=
            CycleTables.renewLease_advances (Outside.transact_eq_ok hdone)
          refine .follow hcycle hadvances ⟨hcycle, h.ordered, fun stages hmem => ?_,
            fun _ _ hphase => by cases hphase⟩ (List.Subset.refl _)
          exact (h.fixed stages hmem).imp_right hadvances.cutoff
  | beginning stage later now =>
      unfold Process.advance
      dsimp only
      cases hdone : outside.transact (tables.beginStage claim stage
          (fingerprintInputs sha256 claim.cycleId stage outputs) now) with
      | error error => exact .failing hcycle (.refl tables)
      | ok done =>
          have hfixed : stage = .harness → tables.CutoffFixed claim.cycleId := by
            rintro rfl
            rw [hcycle]
            apply fixed_later (h.fixed _ rfl) id
            intro hfreeze
            cases hfreeze
          obtain ⟨hadvances, hbegun⟩ :=
            CycleTables.beginStage_advances (Outside.transact_eq_ok hdone) hfixed
          refine .follow hcycle hadvances ⟨hcycle, h.ordered, fun stages hmem => ?_, ?_⟩
            (List.Subset.refl _)
          · exact (h.fixed stages hmem).imp_right hadvances.cutoff
          · rintro _ _ ⟨⟩
            rw [← hcycle]
            exact hbegun
  | invoking stage later fingerprint =>
      unfold Process.advance
      dsimp only
      cases outside.before with
      | some error => exact .failing hcycle (.refl tables)
      | none =>
          cases stageInputs outputs stage with
          | error error => exact .failing hcycle (.refl tables)
          | ok inputs =>
              dsimp only
              cases outside.ports stage with
              | error error => exact .failing hcycle (.refl tables)
              | ok result =>
                  constructor
                  case tables => exact .refl tables
                  case order =>
                    rintro _ ⟨⟩
                    exact ⟨hcycle, h.ordered, h.fixed, fun _ _ hphase => by cases hphase⟩
                  case claim => rintro _ ⟨⟩; exact .refl _
                  case unasked => rintro _ ⟨⟩; exact List.subset_cons_self stage later
  | completing later run result =>
      unfold Process.advance
      dsimp only
      cases hdone : outside.transact (tables.completeStage fromisoformat claim run.fingerprint
          result outside.now outside.registered) with
      | error error => exact .failing hcycle (.refl tables)
      | ok done =>
          obtain ⟨after, raised⟩ := done
          obtain ⟨hadvances, hfreeze⟩ :=
            @CycleTables.completeStage_advances _ cycleId _ _ _ _ _ _ _ _
              (Outside.transact_eq_ok hdone)
          rw [hcycle] at hfreeze
          unfold Process.complete
          cases raised with
          | some error => exact .failing hcycle hadvances
          | none =>
              dsimp only
              cases hclaim : claimAfter fromisoformat claim run.stage result.payload
                  outside.now.instant with
              | error error => exact .failing hcycle hadvances
              | ok next =>
                  have hsame := sameGeneration_of_claimAfter hclaim
                  constructor
                  case tables => exact hadvances
                  case order =>
                    rintro _ ⟨⟩
                    refine ⟨hsame.cycle.trans hcycle, ?_, ?_, fun _ _ hphase => by cases hphase⟩
                    · rintro _ ⟨⟩
                      exact (List.suffix_cons run.stage later).trans (h.ordered _ rfl)
                    · rintro _ ⟨⟩
                      exact Or.inr (fixed_later (h.fixed _ rfl) hadvances.cutoff hfreeze)
                  case claim => rintro _ ⟨⟩; exact hsame
                  case unasked => rintro _ ⟨⟩; exact List.Subset.refl _
  | loading stages =>
      cases stages with
      | nil =>
          unfold Process.advance
          dsimp only
          cases hdone : outside.transact (tables.completeCycle claim outside.now
              (cycleSummary outputs)) with
          | error error => exact .failing hcycle (.refl tables)
          | ok done =>
              obtain ⟨after, raised⟩ := done
              have hadvances : tables.Advances cycleId after :=
                CycleTables.completeCycle_advances (Outside.transact_eq_ok hdone)
              cases raised with
              | some error => exact .failing hcycle hadvances
              | none => exact .ended hadvances
      | cons stage later =>
          unfold Process.advance
          dsimp only
          cases outside.before with
          | some error => exact .failing hcycle (.refl tables)
          | none =>
              dsimp only
              cases hload : tables.loadStage claim.cycleId stage with
              | error error => exact .failing hcycle (.refl tables)
              | ok stored =>
                  cases stored with
                  | none =>
                      constructor
                      case tables => exact .refl tables
                      case order =>
                        rintro _ ⟨⟩
                        exact ⟨hcycle, h.ordered, h.fixed, fun _ _ hphase => by cases hphase⟩
                      case claim => rintro _ ⟨⟩; exact .refl _
                      case unasked => rintro _ ⟨⟩; exact List.Subset.refl _
                  | some result =>
                      rw [hcycle] at hload
                      obtain ⟨row, hrow, hdone⟩ := loadStage_eq_some hload
                      constructor
                      case tables => exact .refl tables
                      case order =>
                        rintro _ ⟨⟩
                        refine ⟨hcycle, ?_, ?_, fun _ _ hphase => by cases hphase⟩
                        · rintro _ ⟨⟩
                          exact (List.suffix_cons stage later).trans (h.ordered _ rfl)
                        · rintro _ ⟨⟩
                          refine Or.inr (fixed_later (h.fixed _ rfl) id ?_)
                          rintro rfl
                          exact hevidence.freeze row hrow hdone
                      case claim => rintro _ ⟨⟩; exact .refl _
                      case unasked => rintro _ ⟨⟩; exact List.subset_cons_self stage later

end

/-! ## All generations -/

/-- The generation of a report that says that one executes. -/
def executor : ℕ × (HarnessReport ⊕ CycleReport) → Option ℕ
  | (index, .inl (.executes _ _)) => some index
  | _ => none

/-- A generation that executes: its claim is no recovery, or has been lost. -/
def ExecutesRightly : ℕ × (HarnessReport ⊕ CycleReport) → Prop
  | (_, .inl (.executes claim held)) => claim.recovery = true → held = false
  | _ => True

/-- A call of a provider follows the decision of its generation to execute. -/
def CallsAfterExecuting (before : HarnessReports) : ℕ × (HarnessReport ⊕ CycleReport) → Prop
  | (index, .inl .calls) => index ∈ before.filterMap executor
  | _ => True

/-- The port of a generation is executing the harness, or about to. -/
def HarnessPhase.Executes : HarnessPhase → Prop
  | .loading | .executing | .storing _ | .auditing _ => True
  | .deciding | .rehydrating | .answered _ => False

/-- A generation that has executed the harness is past asking for it, or waits for the answer. -/
def Generation.Asked (generation : Generation) : Prop :=
  ∀ process ∈ generation.process, .harness ∈ process.phase.unasked →
    ∃ phase ∈ generation.port, phase ≠ .deciding

/-- A generation of the cycle, after some reports of which it is the one with an index. -/
structure Generation.Sound (tables : CycleTables) (cycleId : String) (reports : HarnessReports)
    (index : ℕ) (generation : Generation) : Prop where
  order : ∀ process ∈ generation.process, process.InOrder tables cycleId
  claim : ∀ process ∈ generation.process, process.claim.SameGeneration generation.claim
  port : ∀ phase ∈ generation.port, ∀ process ∈ generation.process,
    ∃ later fingerprint, process.phase = .invoking .harness later fingerprint
  executes : ∀ phase ∈ generation.port, phase.Executes → index ∈ reports.filterMap executor
  asked : index ∈ reports.filterMap executor → generation.Asked

/-- The generations of the cycle after some reports: each is as it should be, at most one is no
recovery, and those that have executed were let. -/
structure Supervised (cycleId : String) (world : HarnessWorld) (reports : HarnessReports) :
    Prop where
  evidence : world.cycles.HarnessEvidence cycleId
  sound : ∀ (index : ℕ) (generation : Generation), world.generations[index]? = some generation →
    generation.Sound world.cycles cycleId reports index
  row : world.generations ≠ [] → (world.cycles.cycleRow cycleId).isSome = true
  first : ∀ (index other : ℕ) (generation generation' : Generation),
    world.generations[index]? = some generation → world.generations[other]? = some generation' →
    generation.claim.recovery = false → generation'.claim.recovery = false → index = other
  claims : ∀ (index : ℕ) (claim : CycleClaim) (held : Bool),
    (index, .inl (.executes claim held)) ∈ reports → ∃ generation : Generation,
      world.generations[index]? = some generation ∧ claim.SameGeneration generation.claim
  once : (reports.filterMap executor).Nodup
  rightly : ∀ report ∈ reports, ExecutesRightly report
  calls : Runs.Each CallsAfterExecuting reports

variable {world : HarnessWorld} {reports : HarnessReports}

theorem Generation.Sound.mono {after : CycleTables} {index : ℕ} {generation : Generation}
    (h : generation.Sound tables cycleId reports index) (hadvances : tables.Advances cycleId after) :
    generation.Sound after cycleId reports index :=
  ⟨fun process hmem => (h.order process hmem).mono hadvances, h.claim, h.port, h.executes, h.asked⟩

/-- The tables of the cycle have gone on. -/
theorem Supervised.advances {after : CycleTables} {stored : HarnessTables}
    (h : Supervised cycleId world reports) (hadvances : world.cycles.Advances cycleId after) :
    Supervised cycleId ⟨after, stored, world.generations⟩ reports :=
  ⟨hadvances.evidence h.evidence, fun index generation hfound =>
    (h.sound index generation hfound).mono hadvances, fun hne => hadvances.row (h.row hne), h.first,
    h.claims, h.once, h.rightly, h.calls⟩

theorem mem_executors {index : ℕ} :
    index ∈ reports.filterMap executor ↔
      ∃ claim held, (index, .inl (.executes claim held)) ∈ reports := by
  rw [List.mem_filterMap]
  constructor
  · rintro ⟨⟨other, report⟩, hmem, hsome⟩
    unfold executor at hsome
    split at hsome
    · obtain rfl := Option.some.inj hsome
      rename_i heq
      cases heq
      exact ⟨_, _, hmem⟩
    · cases hsome
  · rintro ⟨claim, held, hmem⟩
    exact ⟨_, hmem, rfl⟩

theorem each_append {later : HarnessReports} (h : Runs.Each CallsAfterExecuting reports)
    (hlater : ∀ before, ∀ report ∈ later, CallsAfterExecuting before report) :
    Runs.Each CallsAfterExecuting (reports ++ later) := by
  induction later using List.reverseRecOn with
  | nil => simpa using h
  | append_singleton later report ih =>
      rw [← List.append_assoc, Runs.each_concat]
      refine ⟨ih fun before other hmem => hlater before other (List.mem_append_left _ hmem), ?_⟩
      exact hlater _ report (by simp)

/-- One generation goes on, with a report of which only it is the subject. -/
theorem Supervised.replace {after : CycleTables} {stored : HarnessTables} {index : ℕ}
    {generation next : Generation} {later : HarnessReports}
    (h : Supervised cycleId world reports) (hfound : world.generations[index]? = some generation)
    (hadvances : world.cycles.Advances cycleId after) (hclaim : next.claim = generation.claim)
    (hsound : next.Sound after cycleId (reports ++ later) index)
    (hothers : ∀ other ∈ later.filterMap executor, other = index)
    (hclaims : ∀ other claim held, (other, .inl (.executes claim held)) ∈ later →
      claim.SameGeneration generation.claim)
    (honce : ((reports ++ later).filterMap executor).Nodup)
    (hrightly : ∀ report ∈ later, ExecutesRightly report)
    (hcalls : Runs.Each CallsAfterExecuting (reports ++ later)) :
    Supervised cycleId ⟨after, stored, world.generations.set index next⟩ (reports ++ later) := by
  have hlt : index < world.generations.length := (List.getElem?_eq_some_iff.mp hfound).1
  have hself : (world.generations.set index next)[index]? = some next := by
    rw [List.getElem?_set_self hlt]
  have hclaimed {other : ℕ} {found : Generation}
      (hother : (world.generations.set index next)[other]? = some found) :
      ∃ old, world.generations[other]? = some old ∧ found.claim = old.claim := by
    by_cases hne : index = other
    · subst hne
      rw [hself] at hother
      obtain rfl := Option.some.inj hother
      exact ⟨generation, hfound, hclaim⟩
    · rw [List.getElem?_set_ne hne] at hother
      exact ⟨found, hother, rfl⟩
  constructor
  case evidence => exact hadvances.evidence h.evidence
  case sound =>
    intro other found hother
    by_cases hne : index = other
    · subst hne
      rw [hself] at hother
      obtain rfl := Option.some.inj hother
      exact hsound
    · rw [List.getElem?_set_ne hne] at hother
      have hold := (h.sound other found hother).mono hadvances
      refine ⟨hold.order, hold.claim, hold.port, fun phase hphase hexecutes => ?_, fun hexecuted => ?_⟩
      · rw [List.filterMap_append]
        exact List.mem_append_left _ (hold.executes phase hphase hexecutes)
      · rw [List.filterMap_append, List.mem_append] at hexecuted
        rcases hexecuted with hexecuted | hexecuted
        · exact hold.asked hexecuted
        · exact absurd (hothers other hexecuted).symm hne
  case row =>
    intro _
    apply hadvances.row (h.row _)
    rintro hnil
    rw [hnil] at hfound
    cases hfound
  case first =>
    intro first second found found' hfirst hsecond hrecovery hrecovery'
    obtain ⟨old, hold, hsame⟩ := hclaimed hfirst
    obtain ⟨old', hold', hsame'⟩ := hclaimed hsecond
    exact h.first first second old old' hold hold' (by rw [← hsame]; exact hrecovery)
      (by rw [← hsame']; exact hrecovery')
  case claims =>
    intro other claim held hmem
    rcases List.mem_append.mp hmem with hmem | hmem
    · obtain ⟨old, hold, hsame⟩ := h.claims other claim held hmem
      by_cases hne : index = other
      · subst hne
        rw [hfound] at hold
        obtain rfl := Option.some.inj hold
        exact ⟨next, hself, by rw [hclaim]; exact hsame⟩
      · exact ⟨old, by rw [List.getElem?_set_ne hne]; exact hold, hsame⟩
    · have hindex := hothers other (mem_executors.mpr ⟨claim, held, hmem⟩)
      subst hindex
      exact ⟨next, hself, by rw [hclaim]; exact hclaims other claim held hmem⟩
  case once => exact honce
  case rightly =>
    intro report hmem
    rcases List.mem_append.mp hmem with hmem | hmem
    · exact h.rightly report hmem
    · exact hrightly report hmem
  case calls => exact hcalls

/-- Reports that say nothing of executing or of providers. -/
def Quietly (later : HarnessReports) : Prop :=
  ∀ report ∈ later, executor report = none ∧ ExecutesRightly report ∧
    ∀ before, CallsAfterExecuting before report

theorem Quietly.executors {later : HarnessReports} (h : Quietly later) :
    later.filterMap executor = [] := by
  rw [List.filterMap_eq_nil_iff]
  exact fun report hmem => (h report hmem).1

theorem Quietly.append {later : HarnessReports} (h : Quietly later) :
    (reports ++ later).filterMap executor = reports.filterMap executor := by
  rw [List.filterMap_append, h.executors, List.append_nil]

/-- One generation goes on, with nothing to say of executing. -/
theorem Supervised.replaceQuietly {after : CycleTables} {stored : HarnessTables} {index : ℕ}
    {generation next : Generation} {later : HarnessReports}
    (h : Supervised cycleId world reports) (hfound : world.generations[index]? = some generation)
    (hadvances : world.cycles.Advances cycleId after) (hclaim : next.claim = generation.claim)
    (hsound : next.Sound after cycleId reports index) (hquiet : Quietly later) :
    Supervised cycleId ⟨after, stored, world.generations.set index next⟩ (reports ++ later) := by
  refine h.replace hfound hadvances hclaim ⟨hsound.order, hsound.claim, hsound.port, ?_, ?_⟩
    ?_ ?_ ?_ ?_ ?_
  · rw [hquiet.append]
    exact hsound.executes
  · rw [hquiet.append]
    exact hsound.asked
  · rw [hquiet.executors]
    exact fun _ hmem => by cases hmem
  · intro other claim held hmem
    have hnone := (hquiet _ hmem).1
    cases hnone
  · rw [hquiet.append]
    exact h.once
  · exact fun report hmem => (hquiet report hmem).2.1
  · exact each_append h.calls fun before report hmem => (hquiet report hmem).2.2 before

theorem running?_eq_some {index : ℕ} {claim : CycleClaim} {process : Process}
    {port : Option HarnessPhase} (h : world.running? index = some (claim, process, port)) :
    world.generations[index]? = some ⟨claim, some process, port⟩ := by
  unfold HarnessWorld.running? at h
  obtain ⟨generation, hfound, h⟩ := Option.bind_eq_some_iff.mp h
  obtain ⟨found, hprocess, heq⟩ := Option.map_eq_some_iff.mp h
  cases heq
  rw [hfound, ← hprocess]

/-- The stages of a cycle are in order, so the harness comes once. -/
theorem harness_once {later : List CycleStage} (h : CycleStage.harness :: later <:+ stageOrder) :
    .harness ∉ later :=
  (List.nodup_cons.mp (h.sublist.nodup stageOrder_nodup)).1

section

variable {fromisoformat : String → Option Datetime} {sha256 : Json → Sha256} {leaseDuration : ℤ}

/-- The answer of the port of the harness ends the asking. -/
theorem unasked_of_answer {process later : Process} {stages : List CycleStage}
    {fingerprint : Sha256} {outside : Outside} (h : process.InOrder tables cycleId)
    (hphase : process.phase = .invoking .harness stages fingerprint)
    (hnext : (process.advance fromisoformat sha256 leaseDuration tables outside).2.1 = some later) :
    .harness ∉ later.phase.unasked := by
  have hordered := h.ordered
  obtain ⟨claim, outputs, phase⟩ := process
  dsimp only at hphase
  subst hphase
  have hlater := harness_once (hordered _ rfl)
  unfold Process.advance at hnext
  dsimp only at hnext
  split at hnext
  · cases hnext
    exact List.not_mem_nil
  · split at hnext
    · cases hnext
      exact List.not_mem_nil
    · split at hnext
      · cases hnext
        exact List.not_mem_nil
      · cases hnext
        exact hlater

/-- The orchestrator of a generation goes on. -/
theorem Supervised.moved {index : ℕ} {claim : CycleClaim} {process : Process}
    {port : Option HarnessPhase} {outside : Outside} {stored : HarnessTables}
    (h : Supervised cycleId world reports)
    (hfound : world.generations[index]? = some ⟨claim, some process, port⟩)
    (hasked : port = none ∨ ∃ later fingerprint,
      process.phase = .invoking .harness later fingerprint) :
    let advanced := process.advance fromisoformat sha256 leaseDuration world.cycles outside
    Supervised cycleId ⟨advanced.1, stored, world.generations.set index ⟨claim, advanced.2.1, none⟩⟩
      (reports ++ advanced.2.2.map fun report => (index, .inr report)) := by
  intro advanced
  have hsound := h.sound index _ hfound
  have horder := hsound.order process rfl
  have hadvanced : Advanced cycleId world.cycles advanced.1 process advanced.2.1 :=
    horder.advance h.evidence outside
  refine h.replaceQuietly hfound hadvanced.tables rfl ⟨hadvanced.order, ?_, ?_, ?_, ?_⟩ ?_
  · intro later hmem
    exact (hadvanced.claim later hmem).trans (hsound.claim process rfl)
  · exact fun _ hmem => by cases hmem
  · exact fun _ hmem => by cases hmem
  · intro hexecuted later hmem hunasked
    exfalso
    rcases hasked with rfl | ⟨stages, fingerprint, hphase⟩
    · obtain ⟨phase, hport, -⟩ := hsound.asked hexecuted process rfl
        (hadvanced.unasked later hmem hunasked)
      cases hport
    · exact unasked_of_answer horder hphase hmem hunasked
  · intro report hmem
    obtain ⟨shown, -, rfl⟩ := List.mem_map.mp hmem
    exact ⟨rfl, trivial, fun _ => trivial⟩

theorem Supervised.advance {index : ℕ} {outside : Outside} (h : Supervised cycleId world reports) :
    Supervised cycleId (world.advance fromisoformat sha256 leaseDuration index outside).1
      (reports ++ (world.advance fromisoformat sha256 leaseDuration index outside).2) := by
  have hstay : Supervised cycleId world (reports ++ []) := by
    rw [List.append_nil]
    exact h
  unfold HarnessWorld.advance
  cases hrunning : world.running? index with
  | none => exact hstay
  | some found =>
      obtain ⟨claim, process, port⟩ := found
      have hfound := running?_eq_some hrunning
      have hasked : port = none ∨ ∃ later fingerprint,
          process.phase = .invoking .harness later fingerprint := by
        cases hport : port with
        | none => exact Or.inl rfl
        | some phase => exact Or.inr ((h.sound index _ hfound).port phase hport process rfl)
      dsimp only
      split
      next later fingerprint hphase =>
        split
        next =>
          have hsound := h.sound index _ hfound
          refine h.replaceQuietly hfound (.refl _) rfl ⟨hsound.order, hsound.claim, ?_, ?_, ?_⟩ ?_
          · rintro _ - _ ⟨⟩
            exact ⟨later, fingerprint, hphase⟩
          · rintro _ ⟨⟩ hexecutes
            cases hexecutes
          · intro hexecuted
            obtain ⟨phase, hport, -⟩ := hsound.asked hexecuted process rfl (by
              rw [hphase]
              exact List.mem_cons_self)
            cases hport
          · exact fun _ hmem => by cases hmem
        next => exact h.moved hfound hasked
      next => exact h.moved hfound hasked
      next => exact hstay
      next => exact h.moved hfound hasked

end

/-! ## The port of one generation -/

/-- The checkpoint of a cycle that runs has no error. -/
theorem error_of_runsUnder {claim : CycleClaim} {step : StepRow}
    (hevidence : tables.HarnessEvidence claim.cycleId)
    (hstep : tables.stepRow claim.cycleId .harness = some step)
    (hruns : tables.runsUnder claim = true) : step.error = none := by
  by_contra herror
  obtain ⟨row, hrow, hfailed⟩ := hevidence.failed step hstep herror
  unfold CycleTables.runsUnder at hruns
  rw [hrow, Option.any_some, hfailed] at hruns
  cases hruns

theorem requires_of_no_error {step : StepRow} (hstep : tables.stepRow cycleId .harness = some step)
    (herror : step.error = none) : harnessStageRequiresPersistedRun tables cycleId = true := by
  unfold harnessStageRequiresPersistedRun
  rw [hstep]
  dsimp only
  rw [shownError, herror]
  decide

/-- What a step of the port does: it reports that it executes when it is let, calls a provider
while it executes, or says nothing of either. -/
inductive PortStepped (cycles : CycleTables) (claim : CycleClaim) (phase : HarnessPhase) :
    HarnessPhase → Option HarnessReport → Prop
  | executes (hphase : phase = .deciding)
      (hlet : claim.recovery = true → harnessStageRequiresPersistedRun cycles claim.cycleId = false) :
      PortStepped cycles claim phase .loading (some (.executes claim (cycles.runsUnder claim)))
  | calls (hphase : phase = .executing) : PortStepped cycles claim phase .executing (some .calls)
  | other {next : HarnessPhase} {report : Option HarnessReport} (hnext : next ≠ .deciding)
      (hexecutes : next.Executes → phase.Executes)
      (hreport : ∀ shown ∈ report, ∃ result, shown = .answers result) :
      PortStepped cycles claim phase next report

theorem portStepped (library : HarnessLibrary) (cycles : CycleTables) (stored : HarnessTables)
    (claim : CycleClaim) (phase : HarnessPhase) (outside : HarnessOutside) :
    PortStepped cycles claim phase (library.step cycles stored claim phase outside).2.1
      (library.step cycles stored claim phase outside).2.2 := by
  have hanswered (answer : Except Raised (StageResult .harness)) (report : Option HarnessReport)
      (hreport : ∀ shown ∈ report, ∃ result, shown = .answers result) :
      PortStepped cycles claim phase (.answered answer) report :=
    .other (by simp) (fun hexecutes => by cases hexecutes) hreport
  have hsilent : ∀ shown ∈ (none : Option HarnessReport), ∃ result, shown = .answers result :=
    fun _ hmem => by cases hmem
  unfold HarnessLibrary.step
  cases phase with
  | answered answer => exact hanswered answer none hsilent
  | executing =>
      cases outside.move with
      | calls => exact .calls rfl
      | returns result => exact .other (by simp) id hsilent
      | raises error => exact hanswered _ none hsilent
  | deciding =>
      cases outside.before with
      | some error => exact hanswered _ none hsilent
      | none =>
          dsimp only
          split
          · exact .other (by simp) (fun hexecutes => by cases hexecutes) hsilent
          next hlet =>
            refine .executes rfl fun hrecovery => ?_
            simpa [hrecovery] using hlet
  | rehydrating =>
      cases outside.before with
      | some error => exact hanswered _ none hsilent
      | none =>
          dsimp only
          split
          · exact hanswered _ none hsilent
          next result _ =>
            refine hanswered _ _ ?_
            rintro _ ⟨⟩
            exact ⟨result, rfl⟩
  | loading =>
      cases outside.before with
      | some error => exact hanswered _ none hsilent
      | none => exact .other (by simp) id hsilent
  | storing result =>
      cases outside.before with
      | some error => exact hanswered _ none hsilent
      | none =>
          dsimp only
          split
          · exact hanswered _ none hsilent
          · split
            · exact hanswered _ none hsilent
            · exact .other (by simp) id hsilent
  | auditing result =>
      cases outside.before with
      | some error => exact hanswered _ none hsilent
      | none =>
          refine hanswered _ _ ?_
          rintro _ ⟨⟩
          exact ⟨_, rfl⟩

/-- The port of a generation goes on. -/
theorem Supervised.port {index : ℕ} {claim : CycleClaim}
    {process : Process} {phase : HarnessPhase} {stored : HarnessTables} {next : HarnessPhase}
    {report : Option HarnessReport} (h : Supervised cycleId world reports)
    (hfound : world.generations[index]? = some ⟨claim, some process, some phase⟩)
    (hstep : PortStepped world.cycles process.claim phase next report) :
    Supervised cycleId ⟨world.cycles, stored,
        world.generations.set index ⟨claim, some process, some next⟩⟩
      (reports ++ report.toList.map fun shown => (index, .inl shown)) := by
  have hsound := h.sound index _ hfound
  have horder := hsound.order process rfl
  obtain ⟨later, fingerprint, hphase⟩ := hsound.port phase rfl process rfl
  have hport : ∀ found ∈ some next, ∀ running ∈ some process, ∃ later fingerprint,
      running.phase = .invoking .harness later fingerprint := by
    rintro _ - _ ⟨⟩
    exact ⟨later, fingerprint, hphase⟩
  have hunasked : CycleStage.harness ∈ process.phase.unasked := by
    rw [hphase]
    exact List.mem_cons_self
  cases hstep with
  | other hnext hexecutes hreport =>
      refine h.replaceQuietly hfound (.refl _) rfl ⟨hsound.order, hsound.claim, hport, ?_, ?_⟩ ?_
      · rintro _ ⟨⟩ hlater
        exact hsound.executes phase rfl (hexecutes hlater)
      · exact fun _ _ _ _ => ⟨next, rfl, hnext⟩
      · intro shown hmem
        obtain ⟨inner, hinner, rfl⟩ := List.mem_map.mp hmem
        obtain ⟨result, rfl⟩ := hreport inner (Option.mem_toList.mp hinner)
        exact ⟨rfl, trivial, fun _ => trivial⟩
  | calls hexecuting =>
      subst hexecuting
      have hexecuted := hsound.executes _ rfl trivial
      refine h.replace hfound (.refl _) rfl ⟨hsound.order, hsound.claim, hport, ?_, ?_⟩
        ?_ ?_ ?_ ?_ ?_
      · rintro _ ⟨⟩ -
        rw [List.filterMap_append]
        exact List.mem_append_left _ hexecuted
      · exact fun _ _ _ _ => ⟨_, rfl, by simp⟩
      · exact fun _ hmem => by cases hmem
      · rintro _ _ _ hmem
        simp at hmem
      · rw [List.filterMap_append]
        exact (List.append_nil _).symm ▸ h.once
      · intro shown hmem
        obtain rfl := List.mem_singleton.mp hmem
        trivial
      · exact Runs.each_concat.mpr ⟨h.calls, hexecuted⟩
  | executes hdeciding hlet =>
      subst hdeciding
      have hfresh : index ∉ reports.filterMap executor := by
        intro hexecuted
        obtain ⟨found, hfound', hne⟩ := hsound.asked hexecuted process rfl hunasked
        exact hne (Option.some.inj hfound').symm
      refine h.replace hfound (.refl _) rfl ⟨hsound.order, hsound.claim, hport, ?_, ?_⟩
        ?_ ?_ ?_ ?_ ?_
      · rintro _ ⟨⟩ -
        rw [List.filterMap_append]
        exact List.mem_append_right _ List.mem_cons_self
      · exact fun _ _ _ _ => ⟨_, rfl, by simp⟩
      · intro other hmem
        exact List.mem_singleton.mp hmem
      · rintro other shown held hmem
        have heq := List.mem_singleton.mp hmem
        simp only [Prod.mk.injEq, Sum.inl.injEq, HarnessReport.executes.injEq] at heq
        rw [heq.2.1]
        exact hsound.claim process rfl
      · rw [List.filterMap_append]
        exact List.nodup_append.mpr ⟨h.once, List.nodup_singleton _, by
          rintro first hfirst _ hsecond rfl
          rw [List.mem_singleton.mp hsecond] at hfirst
          exact hfresh hfirst⟩
      · intro shown hmem
        obtain rfl := List.mem_singleton.mp hmem
        intro hrecovery
        by_contra hruns
        obtain ⟨step, hstep⟩ :=
          Option.isSome_iff_exists.mp (horder.begun later fingerprint hphase)
        have hcycle := horder.cycle
        rw [← hcycle] at hstep
        have herror := error_of_runsUnder (by rw [hcycle]; exact h.evidence) hstep
          (by simpa using hruns)
        have hrequires := requires_of_no_error hstep herror
        rw [hlet hrecovery] at hrequires
        cases hrequires
      · exact Runs.each_concat.mpr ⟨h.calls, trivial⟩

/-! ## Runs -/

variable {ids : RandomIds} {fromisoformat : String → Option Datetime} {sha256 : Json → Sha256}
  {leaseDuration : ℤ} {library : HarnessLibrary}

/-- A claim of the cycle begins a generation: one that is no recovery only when there is none. -/
theorem Supervised.claimed {after : CycleTables} {claims : List CycleClaim} {claim : CycleClaim}
    {request : CycleCall} (h : Supervised cycleId world reports)
    (hother : ∀ claim ∈ request.claim?, claim.cycleId ≠ cycleId)
    (hdone : world.cycles.transact ids fromisoformat request = .ok (after, claims))
    (hlast : CycleTables.lastClaim cycleId claims = some claim) :
    Supervised cycleId
      ⟨after, world.stored, world.generations ++ [⟨claim, some (.start claim), none⟩]⟩ reports := by
  obtain ⟨hcycle, row, hrow, -⟩ := (CycleTables.transact_spec hdone).cutoff_of_lastClaim hlast
  have hreschedules := CycleTables.transact_reschedules hother hdone
  have hmem : claim ∈ claims := by
    have hmem := List.mem_of_getLast? hlast
    exact (List.mem_filter.mp hmem).1
  have hold {index : ℕ} {generation : Generation} {next : Generation}
      (hfound : (world.generations ++ [next])[index]? = some generation) :
      world.generations[index]? = some generation ∨
        index = world.generations.length ∧ generation = next := by
    rw [List.getElem?_append] at hfound
    split at hfound
    · exact Or.inl hfound
    next hlt =>
      obtain ⟨hzero, heq⟩ := List.getElem?_eq_some_iff.mp hfound
      rw [List.length_singleton] at hzero
      refine Or.inr ⟨by omega, ?_⟩
      rw [← heq, List.getElem_singleton]
  have hnone (hrecovery : claim.recovery = false) : world.generations = [] := by
    by_contra hne
    have hsome := h.row hne
    rw [hreschedules.fresh claim hmem hcycle hrecovery] at hsome
    cases hsome
  have hkeeps : Supervised cycleId ⟨_, world.stored, world.generations⟩ _ :=
    h.advances hreschedules.advances
  constructor
  case evidence => exact hkeeps.evidence
  case sound =>
    intro index generation hfound
    rcases hold hfound with hfound | ⟨hindex, rfl⟩
    · exact hkeeps.sound index generation hfound
    · constructor
      case order =>
        rintro _ ⟨⟩
        exact .start hcycle
      case claim =>
        rintro _ ⟨⟩
        exact .refl _
      case port => exact fun _ hmem => by cases hmem
      case executes => exact fun _ hmem => by cases hmem
      case asked =>
        intro hexecuted
        obtain ⟨shown, held, hmem⟩ := mem_executors.mp hexecuted
        obtain ⟨generation, hgeneration, -⟩ := h.claims index shown held hmem
        rw [hindex, List.getElem?_eq_none le_rfl] at hgeneration
        cases hgeneration
  case row => exact fun _ => Option.isSome_of_eq_some hrow
  case first =>
    intro index other generation generation' hfound hfound' hrecovery hrecovery'
    rcases hold hfound with hold1 | ⟨hindex, rfl⟩
    · rcases hold hfound' with hold2 | ⟨hindex, rfl⟩
      · exact h.first index other generation generation' hold1 hold2 hrecovery hrecovery'
      · rw [hnone hrecovery'] at hold1
        cases hold1
    · rcases hold hfound' with hold2 | ⟨hindex', rfl⟩
      · rw [hnone hrecovery] at hold2
        cases hold2
      · rw [hindex, hindex']
  case claims =>
    intro index shown held hmem
    obtain ⟨generation, hgeneration, hsame⟩ := h.claims index shown held hmem
    refine ⟨generation, ?_, hsame⟩
    rw [List.getElem?_append_left (List.getElem?_eq_some_iff.mp hgeneration).1]
    exact hgeneration
  case once => exact h.once
  case rightly => exact h.rightly
  case calls => exact h.calls

/-- Whatever happens, those execute the harness that may. -/
theorem Supervised.step (h : Supervised cycleId world reports) (event : HarnessEvent) :
    Supervised cycleId
      (world.step ids fromisoformat sha256 leaseDuration library cycleId event).1
      (reports ++ (world.step ids fromisoformat sha256 leaseDuration library cycleId event).2) := by
  have hstay : Supervised cycleId world (reports ++ []) := by
    rw [List.append_nil]
    exact h
  unfold HarnessWorld.step
  cases event with
  | call request =>
      dsimp only
      split
      next => exact hstay
      next hothers =>
        have hother : ∀ claim ∈ request.claim?, claim.cycleId ≠ cycleId := by
          intro claim hclaim hsame
          apply hothers
          rw [Option.mem_def.mp hclaim]
          exact decide_eq_true hsame
        split
        next => exact hstay
        next after claims hdone =>
          rw [List.append_nil]
          cases hlast : CycleTables.lastClaim cycleId claims with
          | none => exact h.advances (CycleTables.transact_reschedules hother hdone).advances
          | some claim => exact h.claimed hother hdone hlast
  | publish index now cutoff =>
      dsimp only
      split
      next => exact hstay
      next claim process port _ =>
        split
        next => exact hstay
        next after hdone =>
          rw [List.append_nil]
          exact h.advances (CycleTables.publishFreeze_advances hdone)
  | advance index outside => exact h.advance
  | port index outside =>
      dsimp only
      split
      next claim process phase hrunning =>
        exact h.port (running?_eq_some hrunning)
          (portStepped library world.cycles world.stored process.claim phase outside)
      next => exact hstay
  | crash index =>
      dsimp only
      split
      next => exact hstay
      next generation hfound =>
        refine h.replaceQuietly hfound (.refl _) rfl ?_ (fun _ hmem => by cases hmem)
        exact ⟨fun _ hmem => (by cases hmem), fun _ hmem => (by cases hmem),
          fun _ hmem => (by cases hmem), fun _ hmem => (by cases hmem),
          fun _ _ hmem => by cases hmem⟩
  | persistOther other result outside =>
      dsimp only
      split
      next => exact hstay
      next =>
        split
        next => exact hstay
        next after _ =>
          rw [List.append_nil]
          exact h.advances (.refl _)
  | retain inventory =>
      rw [List.append_nil]
      exact h.advances (.refl _)

/-- Before anything is scheduled. -/
def HarnessWorld.unscheduled (schedules : ScheduleTable) (stored : HarnessTables) : HarnessWorld :=
  ⟨CycleTables.unscheduled schedules, stored, []⟩

/-- What can be seen of a run. -/
def harnessReports (ids : RandomIds) (fromisoformat : String → Option Datetime)
    (sha256 : Json → Sha256) (leaseDuration : ℤ) (library : HarnessLibrary) (cycleId : String)
    (world : HarnessWorld) (events : List HarnessEvent) : HarnessReports :=
  (Runs.trace (HarnessWorld.step ids fromisoformat sha256 leaseDuration library cycleId) world
    events).flatMap fun answered => answered.2

theorem supervised_unscheduled (schedules : ScheduleTable) (stored : HarnessTables) :
    Supervised cycleId (.unscheduled schedules stored) [] where
  evidence := ⟨fun _ hstep => (by cases hstep), fun _ hstep => (by cases hstep),
    fun _ hstep => by cases hstep⟩
  sound _ _ hfound := by cases hfound
  row hne := absurd rfl hne
  first _ _ _ _ hfound := by cases hfound
  claims _ _ _ hmem := by cases hmem
  once := List.nodup_nil
  rightly _ hmem := by cases hmem
  calls := Runs.each_nil

theorem supervised_run (schedules : ScheduleTable) (stored : HarnessTables)
    (events : List HarnessEvent) :
    Supervised cycleId
      (Runs.final (HarnessWorld.step ids fromisoformat sha256 leaseDuration library cycleId)
        (.unscheduled schedules stored) events)
      (harnessReports ids fromisoformat sha256 leaseDuration library cycleId
        (.unscheduled schedules stored) events) := by
  refine Runs.final_invariant
    (HarnessWorld.step ids fromisoformat sha256 leaseDuration library cycleId)
    (fun trace world => Supervised cycleId world (trace.flatMap fun answered => answered.2))
    (supervised_unscheduled schedules stored) (fun seen world event h => ?_) events
  rw [List.flatMap_append, List.flatMap_singleton]
  exact h.step event

/-- However generations of a cycle crash, lose their leases, go on without them and are
recovered: no generation executes the harness twice; a generation that has recovered the cycle
executes it only if it has lost the cycle again, so that at most one executes it while it holds
the cycle; and every call of a provider is made by a generation that has decided to execute. -/
theorem harness_executions (ids : RandomIds) (fromisoformat : String → Option Datetime)
    (sha256 : Json → Sha256) (leaseDuration : ℤ) (library : HarnessLibrary) (cycleId : String)
    (schedules : ScheduleTable) (stored : HarnessTables) (events : List HarnessEvent) :
    let reports := harnessReports ids fromisoformat sha256 leaseDuration library cycleId
      (.unscheduled schedules stored) events
    (reports.filterMap executor).Nodup ∧
    (∀ index claim held, (index, .inl (.executes claim held)) ∈ reports →
      claim.recovery = true → held = false) ∧
    (∀ index other claim claim', (index, .inl (.executes claim true)) ∈ reports →
      (other, .inl (.executes claim' true)) ∈ reports → index = other) ∧
    Runs.Each CallsAfterExecuting reports := by
  intro reports
  have h : Supervised cycleId _ reports := supervised_run schedules stored events
  have hrecovery : ∀ index claim held, (index, .inl (.executes claim held)) ∈ reports →
      claim.recovery = true → held = false := fun index claim held hmem => h.rightly _ hmem
  refine ⟨h.once, hrecovery, fun index other claim claim' hmem hmem' => ?_, h.calls⟩
  have hfirst {index : ℕ} {claim : CycleClaim}
      (hmem : (index, .inl (.executes claim true)) ∈ reports) : claim.recovery = false := by
    by_contra hne
    have hlost := hrecovery index claim true hmem (by simpa using hne)
    cases hlost
  obtain ⟨generation, hfound, hsame⟩ := h.claims index claim true hmem
  obtain ⟨generation', hfound', hsame'⟩ := h.claims other claim' true hmem'
  exact h.first index other generation generation' hfound hfound'
    (hsame.recovery.symm.trans (hfirst hmem)) (hsame'.recovery.symm.trans (hfirst hmem'))

end VTrade
