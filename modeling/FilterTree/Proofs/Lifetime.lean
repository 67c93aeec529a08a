import FilterTree.Proofs.Integrity

/-!
# The life of a draft

A draft begins blank or with a model from outside and goes through any actions in any order.

* `Supply.Distinct`, `Supply.Spares`: what is asked of the identifiers made for new nodes;
* `Draft.Begun`, `Draft.Run`: the beginning and what follows it;
* `next_perform`, `Run.preserves`: what one action does, and what a run keeps;
* `Draft.Sound`, `sound_of_run`: the state that every action keeps;
* `run_valid`: every model that is reached is valid, and a node that is gone is never named again.
-/

namespace FilterTree

namespace Supply

/-- No two identifiers of the supply are equal, be they spent or not. -/
structure Distinct (s : Supply) : Prop where
  within : ∀ n, (s.batch n).ids.Nodup
  across : ∀ i j, i ≠ j → ∀ id ∈ (s.batch i).ids, id ∉ (s.batch j).ids

/-- None of the identifiers is still to come. -/
def Spares (s : Supply) (ids : List NodeId) : Prop :=
  ∀ n, s.used ≤ n → ∀ id ∈ (s.batch n).ids, id ∉ ids

theorem Spares.rest {s : Supply} {ids : List NodeId} (h : s.Spares ids) : s.rest.Spares ids :=
  fun n later => h n (Nat.le_of_succ_le later)

theorem Distinct.rest {s : Supply} (h : s.Distinct) : s.rest.Distinct := ⟨h.within, h.across⟩

theorem Distinct.spares_next {s : Supply} (h : s.Distinct) : s.rest.Spares s.next.ids := by
  intro n later id new
  have other : n ≠ s.used := by
    have : s.used + 1 ≤ n := later
    omega
  exact h.across n s.used other id new

end Supply

/-- The action may have any arguments. A model that takes the place of the old one is a document
and names no node by an identifier that is still to come. -/
def Action.Admissible (document : Model → Prop) (s : Supply) : Action → Prop
  | .replace m => document m ∧ s.Spares m.ids
  | _ => True

theorem Action.admissible_of_isReplace {document : Model → Prop} {s : Supply} {a : Action}
    (keeps : a.isReplace = false) : a.Admissible document s := by
  cases a with
  | replace m => cases keeps
  | update | add | addAfter | split | delete | cut | cutTo | reset => trivial

namespace Draft

section
variable (document : Model → Prop)

/-- A draft begins blank or with a document. -/
inductive Begun (supply : Supply) : Draft → Prop where
  | blank (table : String) : Begun supply (.start table supply)
  | opened (table : String) {m : Model} (read : document m) (spares : supply.Spares m.ids) :
      Begun supply ⟨table, m, supply⟩

/-- The actions of the list lead in this order from the first draft to the second. -/
inductive Run : Draft → List Action → Draft → Prop where
  | nil (d : Draft) : Run d [] d
  | cons {d e : Draft} {a : Action} {later : List Action} (admissible : a.Admissible document d.supply)
      (run : Run (d.perform a).1 later e) : Run d (a :: later) e

end

/-- The state between two actions. -/
structure Sound (d : Draft) : Prop where
  valid : d.model.Valid
  distinct : d.supply.Distinct
  spares : d.supply.Spares d.model.ids

theorem perform_cases (d : Draft) (a : Action) :
    (d.perform a).1 = d ∨
      (d.perform a).1 = { d with model := (a.apply d.supply.next d.model).model,
                                 supply := d.supply.rest } := by
  simp only [perform]
  split
  · exact .inr rfl
  · exact .inl rfl

/-- Every action but a replacement leaves the model of a draft as it is or takes one step. -/
theorem next_perform (d : Draft) {a : Action} (kept : a.isReplace = false) :
    d.model.Next (fun _ _ => True) d.supply.next (d.perform a).1.model := by
  rcases perform_cases d a with same | next
  · rw [same]
    exact .inl rfl
  · rw [next]
    exact Action.next_of_update d.model d.supply.next kept fun _ _ _ _ _ _ _ _ _ => trivial

theorem spares_perform {d : Draft} {ids : List NodeId} (h : d.supply.Spares ids) (a : Action) :
    (d.perform a).1.supply.Spares ids := by
  rcases perform_cases d a with same | next
  · rwa [same]
  · rw [next]; exact h.rest

variable {document : Model → Prop}

theorem sound_perform {d : Draft} (h : d.Sound) {a : Action}
    (valid_of_document : ∀ m, document m → m.Valid)
    (admissible : a.Admissible document d.supply) : (d.perform a).1.Sound := by
  rcases perform_cases d a with same | next
  · rwa [same]
  rw [next]
  cases replaces : a.isReplace with
  | false =>
    refine ⟨Action.valid_apply h.valid (h.distinct.within _) (h.spares _ (Nat.le_refl _)) replaces,
      h.distinct.rest, fun n later id new mem => ?_⟩
    rcases Action.ids_apply_subset h.valid replaces mem with old | made
    · exact h.spares.rest n later id new old
    · exact h.distinct.spares_next n later id new made
  | true =>
    cases a with
    | replace m => exact ⟨valid_of_document m admissible.1, h.distinct.rest, admissible.2.rest⟩
    | update | add | addAfter | split | delete | cut | cutTo | reset => cases replaces

theorem sound_of_begun {supply : Supply} (distinct : supply.Distinct) {d : Draft}
    (valid_of_document : ∀ m, document m → m.Valid) (h : d.Begun document supply) : d.Sound := by
  cases h with
  | blank table => exact ⟨Model.valid_blank (distinct.within _), distinct.rest, distinct.spares_next⟩
  | opened table read spares => exact ⟨valid_of_document _ read, distinct, spares⟩

/-- What every action of a run preserves holds at its end. -/
theorem Run.preserves {P : Draft → Prop} {d e : Draft} {actions : List Action}
    (run : d.Run document actions e) (start : P d)
    (step : ∀ d, ∀ a ∈ actions, a.Admissible document d.supply → P d → P (d.perform a).1) : P e := by
  induction run with
  | nil => exact start
  | cons admissible _ ih =>
    apply ih (step _ _ List.mem_cons_self admissible start)
    intro d a later
    exact step d a (List.mem_cons_of_mem _ later)

theorem sound_of_run {d e : Draft} {actions : List Action}
    (valid_of_document : ∀ m, document m → m.Valid) (h : d.Sound)
    (run : d.Run document actions e) : e.Sound :=
  run.preserves (P := Sound) h fun _ _ _ admissible sound =>
    sound_perform sound valid_of_document admissible

theorem Run.spares {d e : Draft} {actions : List Action} (run : d.Run document actions e)
    {ids : List NodeId} (h : d.supply.Spares ids) : e.supply.Spares ids :=
  run.preserves (P := fun d => d.supply.Spares ids) h fun _ a _ _ spared => spares_perform spared a

/-- An identifier that no node has and that is not to come stays away. -/
theorem Run.not_mem {d e : Draft} {actions : List Action} (run : d.Run document actions e)
    (valid_of_document : ∀ m, document m → m.Valid) (h : d.Sound)
    (kept : ∀ a ∈ actions, a.isReplace = false) {id : NodeId} (spent : d.supply.Spares [id])
    (gone : id ∉ d.model.ids) : id ∉ e.model.ids := by
  induction run with
  | nil => exact gone
  | @cons d _ a later admissible _ ih =>
    obtain ⟨replaces, kept⟩ := List.forall_mem_cons.mp kept
    refine ih (sound_perform h valid_of_document admissible) kept (spares_perform spent a) ?_
    rcases perform_cases d a with same | next
    · rwa [same]
    · rw [next]
      intro back
      rcases Action.ids_apply_subset h.valid replaces back with old | made
      · exact gone old
      · exact spent d.supply.used (Nat.le_refl _) id made List.mem_cons_self

/-- **Reached models are valid and names are not used again.** Whatever is done to a draft, in any
order and with any arguments, its model has a root, no group without a child and no identifier
twice, so that it would be accepted if it came from outside. And unless a model replaces it, no
identifier comes back once no node has it. -/
theorem run_valid {supply : Supply} (distinct : supply.Distinct) {d e : Draft}
    {actions : List Action} (begun : d.Begun Model.Accepted supply)
    (run : d.Run Model.Accepted actions e) :
    e.model.Valid ∧ e.model.Accepted ∧
      ∀ {between after : List Action} {e₁ e₂ : Draft}, e.Run Model.Accepted between e₁ →
        e₁.Run Model.Accepted after e₂ → (∀ a ∈ after, a.isReplace = false) →
        ∀ id ∈ e.model.ids, id ∉ e₁.model.ids → id ∉ e₂.model.ids := by
  have accepted : ∀ m : Model, m.Accepted → m.Valid := fun _ => Model.accepted_iff_valid.mp
  have sound := sound_of_run accepted (sound_of_begun distinct accepted begun) run
  refine ⟨sound.valid, Model.accepted_iff_valid.mpr sound.valid, ?_⟩
  intro between after e₁ e₂ first second kept id once gone
  have spent : e.supply.Spares [id] := by
    intro n later new made same
    rw [List.mem_singleton] at same
    exact sound.spares n later new made (same ▸ once)
  exact second.not_mem accepted (sound_of_run accepted sound first) kept (first.spares spent) gone

/-- An endless supply: the identifiers of batch `n` are a letter and `n` signs after it. -/
def tally : Supply where
  batch n :=
    let id (c : Char) : NodeId := ⟨String.ofList (c :: List.replicate n '+')⟩
    ⟨id 'r', id 'g', id 'c'⟩

/-- Once the first batch is spent, identifiers without such a sign do not come up. -/
theorem spares_tally {ids : List NodeId} (plain : ∀ id ∈ ids, '+' ∉ id.text.toList) :
    tally.rest.Spares ids := by
  intro n later id made mem
  refine plain id mem ?_
  have positive : n ≠ 0 := Nat.ne_of_gt later
  simp only [tally, Supply.rest, Fresh.ids, List.mem_cons, List.not_mem_nil, or_false] at made
  rcases made with rfl | rfl | rfl <;> simp [positive]

theorem tally_distinct : tally.Distinct := by
  have letters {c d : Char} {i j : Nat}
      (h : NodeId.mk (String.ofList (c :: List.replicate i '+')) =
        ⟨String.ofList (d :: List.replicate j '+')⟩) : c = d ∧ i = j := by
    have texts := String.ofList_injective (NodeId.mk.inj h)
    have length := congrArg List.length texts
    simp only [List.length_cons, List.length_replicate, Nat.add_right_cancel_iff] at length
    exact ⟨(List.cons.inj texts).1, length⟩
  constructor
  · intro n
    simp only [tally, Fresh.ids, List.nodup_cons, List.mem_cons, List.not_mem_nil, or_false,
      not_or, not_false_eq_true, List.nodup_nil, and_true]
    refine ⟨⟨?_, ?_⟩, ?_⟩ <;> exact fun h => absurd (letters h).1 (by decide)
  · intro i j other id first second
    simp only [tally, Fresh.ids, List.mem_cons, List.not_mem_nil, or_false] at first second
    rcases first with rfl | rfl | rfl <;> rcases second with h | h | h <;>
      exact other (letters h).2

/-- A draft begins blank, gets a second group and loses it again; the name of that group does not
come back with the condition that is added then. -/
theorem run_valid_add_delete_add :
    let d := Draft.start "incident" tally
    let e := (d.perform (.addAfter ⟨"g"⟩)).1
    let e₁ := (e.perform (.delete ⟨"g+"⟩ ⟨"c+"⟩)).1
    let e₂ := (e₁.perform (.add ⟨"g"⟩)).1
    d.Begun Model.Accepted tally ∧ d.Run Model.Accepted [.addAfter ⟨"g"⟩] e ∧
      ⟨"g+"⟩ ∈ e.model.ids ∧ ⟨"g+"⟩ ∉ e₁.model.ids ∧
      e.model.Valid ∧ e.model.Accepted ∧ ⟨"g+"⟩ ∉ e₂.model.ids := by
  intro d e e₁ e₂
  have begun : d.Begun Model.Accepted tally := .blank "incident"
  have run : d.Run Model.Accepted [.addAfter ⟨"g"⟩] e := .cons trivial (.nil _)
  have once : ⟨"g+"⟩ ∈ e.model.ids := by decide
  have gone : ⟨"g+"⟩ ∉ e₁.model.ids := by decide
  obtain ⟨valid, accepted, away⟩ := run_valid tally_distinct begun run
  have first : e.Run Model.Accepted [.delete ⟨"g+"⟩ ⟨"c+"⟩] e₁ := .cons trivial (.nil _)
  have second : e₁.Run Model.Accepted [.add ⟨"g"⟩] e₂ := .cons trivial (.nil _)
  exact ⟨begun, run, once, gone, valid, accepted, away first second (by decide) _ once gone⟩

end Draft

end FilterTree
