import FilterTree.Proofs.Persistence

namespace FilterTree

namespace Model

structure Peopled (m : Model) : Prop where
  roots : m.forest ≠ []
  full : Forest.Full m.forest

variable {m : Model}

theorem peopled_of_accepted (accepted : m.Accepted) : m.Peopled := by
  obtain ⟨roots, full, _⟩ := valid_iff.mp (accepted_iff_valid.mp accepted)
  exact ⟨roots, full⟩

theorem encode_ne_empty (peopled : m.Peopled) (complete : ∀ c ∈ m.leaves, c.isComplete = true) :
    m.encode ≠ "" := by
  rw [encode_eq_text]
  exact Forest.text_ne_empty peopled.full complete peopled.roots separator

/-- An incomplete condition has no field or no operator. -/
theorem incomplete_eq (m : Model) :
    m.incomplete = (m.leaves.filter fun c => c.field = "" ∨ c.operator = "").map (·.id) := by
  unfold incomplete
  congr 1
  apply List.filter_congr
  intro c _
  cases complete : c.isComplete with
  | true => simpa using (Condition.isComplete_iff.mp complete)
  | false =>
    have missing := mt Condition.isComplete_iff.mpr (Bool.eq_false_iff.mp complete)
    simpa [-not_and, not_and_or] using missing

end Model

namespace Draft

section
variable {μ : Type → Type} [Monad μ] {ε : Type}

/-- The executor with a list of the tables and queries that it has been called with. -/
def recorded (execute : String → String → μ (Except ε Unit)) (table query : String) :
    StateT (List (String × String)) μ (Except ε Unit) := do
  modify (· ++ [(table, query)])
  execute table query

/-- What comes of a query that the executor has answered. -/
def outcome (query : String) : Except ε Unit → Except (RunError ε) String
  | .ok () => .ok query
  | .error cause => .error (.executor cause)

variable {d : Draft}

theorem run_of_complete [LawfulMonad μ] (complete : ∀ c ∈ d.model.leaves, c.isComplete = true)
    (execute : String → String → μ (Except ε Unit)) :
    d.run execute = outcome d.model.encode <$> execute d.table d.model.encode := by
  have all : d.model.leaves.all Condition.isComplete = true := List.all_eq_true.mpr complete
  unfold run Model.query?
  rw [if_pos all, map_eq_pure_bind]
  apply bind_congr
  rintro (cause | _) <;> rfl

theorem run_of_incomplete {c : Condition} (mem : c ∈ d.model.leaves) (missing : c.isComplete = false)
    (execute : String → String → μ (Except ε Unit)) :
    d.run execute = pure (.error (.incomplete d.model.incomplete)) := by
  have unready : ¬ d.model.leaves.all Condition.isComplete = true := by
    intro all
    rw [List.all_eq_true.mp all c mem] at missing
    cases missing
  unfold run Model.query?
  rw [if_neg unready]

theorem run_recorded_eq [LawfulMonad μ] (execute : String → String → μ (Except ε Unit))
    (table query : String) (log : List (String × String)) :
    (outcome query <$> recorded execute table query).run log =
      (fun answer => (outcome query answer, log ++ [(table, query)])) <$> execute table query := by
  simp [recorded]

end

section
variable {d e : Draft} {a : Action} {actions : List Action}

theorem peopled_perform (admissible : a.Admissible Model.Accepted d.supply)
    (peopled : d.model.Peopled) : (d.perform a).1.model.Peopled := by
  cases replaces : a.isReplace with
  | true =>
    cases a with
    | replace m => exact Model.peopled_of_accepted admissible.1
    | update | add | addAfter | split | delete | cut | cutTo | reset => cases replaces
  | false =>
    rcases next_perform d replaces with same | step
    · rwa [same]
    · have kept := Forest.keeps_of_step step peopled.full
      exact ⟨kept.ne_nil, kept.full peopled.full⟩

theorem peopled_of_begun {supply : Supply} (begun : d.Begun Model.Accepted supply) :
    d.model.Peopled := by
  cases begun with
  | blank table =>
    have kept := Forest.keeps_blank [] supply.next
    exact ⟨kept.ne_nil, kept.full Forest.full_nil⟩
  | opened table read _ => exact Model.peopled_of_accepted read

theorem peopled_of_run (peopled : d.model.Peopled) (run : d.Run Model.Accepted actions e) :
    e.model.Peopled :=
  run.preserves (P := fun d => d.model.Peopled) peopled fun _ _ _ => peopled_perform

end

/-- **No empty query is run.** Whatever has been done to a draft that began blank or with an accepted
model, and whatever an executor does with its table and query: if all conditions are complete, running
the draft calls it once, with the text of the model, and gives its answer. This text is not empty, it
is the predicates of all conditions in their order, each after what joins it. If a condition is
incomplete there is no call, and the error names the conditions that have no field or no operator, in
their order; there is at least one. -/
theorem run_recorded {supply : Supply} {d e : Draft} {actions : List Action}
    (begun : d.Begun Model.Accepted supply) (run : d.Run Model.Accepted actions e)
    {μ : Type → Type} [Monad μ] [LawfulMonad μ] {ε : Type}
    (execute : String → String → μ (Except ε Unit)) (log : List (String × String)) :
    let query := e.model.encode
    let missing := e.model.leaves.filter fun c => c.field = "" ∨ c.operator = ""
    ((∀ c ∈ e.model.leaves, c.isComplete = true) →
        e.run execute = outcome query <$> execute e.table query ∧
        (e.run (recorded execute)).run log =
          (fun answer => (outcome query answer, log ++ [(e.table, query)])) <$>
            execute e.table query ∧
        query ≠ "" ∧ query = Forest.recital e.model.joined ∧
        e.model.joined.map Prod.snd = e.model.leaves) ∧
      ((∃ c ∈ e.model.leaves, c.isComplete = false) →
        e.run execute = pure (.error (.incomplete (missing.map (·.id)))) ∧
        (e.run (recorded execute)).run log = pure (.error (.incomplete (missing.map (·.id))), log) ∧
        missing ≠ []) := by
  intro query missing
  have peopled := peopled_of_run (peopled_of_begun begun) run
  constructor
  · intro complete
    refine ⟨run_of_complete complete execute, ?_, Model.encode_ne_empty peopled complete,
      Model.encode_eq_recital peopled.roots peopled.full complete, Forest.map_snd_joined _ _ _⟩
    rw [run_of_complete complete, run_recorded_eq]
  · rintro ⟨c, mem, incomplete⟩
    have named : e.model.incomplete = missing.map (·.id) := e.model.incomplete_eq
    rw [← named]
    refine ⟨run_of_incomplete mem incomplete execute, ?_, ?_⟩
    · rw [run_of_incomplete mem incomplete]
      rfl
    · intro unnamed
      have listed : c.id ∈ e.model.incomplete := by
        apply List.mem_map_of_mem
        simp [mem, incomplete]
      rw [named, unnamed] at listed
      cases listed

/-- A condition without a value is complete, and the executor is called though it fails; while there is
a blank condition it is not. -/
theorem run_recorded_branching :
    let d : Draft := ⟨"incident", Model.branching, tally.rest⟩
    let failing (_ _ : String) : Id (Except String Unit) := .error "unavailable"
    let emptied := (d.perform (.update ⟨"two"⟩ ⟨"c"⟩ (.ofValue ""))).1
    let opened := (d.perform (.split ⟨"three"⟩ ⟨"a"⟩)).1
    d.Begun Model.Accepted tally.rest ∧
      d.Run Model.Accepted [.update ⟨"two"⟩ ⟨"c"⟩ (.ofValue "")] emptied ∧
      (∀ c ∈ emptied.model.leaves, c.isComplete = true) ∧
      (emptied.run (recorded failing)).run [] =
        (.error (.executor "unavailable"), [("incident", "a=1^b=1^ORc=^d=1^NQe=1^ORf=1")]) ∧
      d.Run Model.Accepted [.split ⟨"three"⟩ ⟨"a"⟩] opened ∧
      (∃ c ∈ opened.model.leaves, c.isComplete = false) ∧
      (opened.run (recorded failing)).run [] = (.error (.incomplete [⟨"c+"⟩]), []) := by
  intro d failing emptied opened
  have begun : d.Begun Model.Accepted tally.rest := .opened "incident" rfl spares_branching
  have first : d.Run Model.Accepted [.update ⟨"two"⟩ ⟨"c"⟩ (.ofValue "")] emptied :=
    .cons trivial (.nil _)
  have second : d.Run Model.Accepted [.split ⟨"three"⟩ ⟨"a"⟩] opened := .cons trivial (.nil _)
  have complete : ∀ c ∈ emptied.model.leaves, c.isComplete = true := by decide
  have missing : ∃ c ∈ opened.model.leaves, c.isComplete = false := by decide
  obtain ⟨_, called, _⟩ := (run_recorded begun first failing []).1 complete
  obtain ⟨_, silent, _⟩ := (run_recorded begun second failing []).2 missing
  exact ⟨begun, first, complete, called, second, missing, silent⟩

end Draft

end FilterTree
