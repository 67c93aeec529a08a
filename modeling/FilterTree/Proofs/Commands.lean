import FilterTree.Console.Execute
import FilterTree.Proofs.Step

namespace FilterTree

def Action.isUpdate : Action → Bool
  | .update _ _ _ => true
  | _ => false

namespace Console

/-- What a command other than `load` may do to a draft. A condition gets a field of the catalog, an
operator of the field that it has, or a value; anything else does not patch conditions. -/
inductive Grants (catalog : Catalog) (d : Draft) : Action → Prop where
  | field {g c : NodeId} {path : String} {p : Patch}
      (chosen : catalog.fieldPatch? d.table path = some p) : Grants catalog d (.update g c p)
  | operator {g c : NodeId} {operator : String} {p : Patch}
      (chosen : catalog.operatorPatch? d.table
        (((d.model.condition? g c).map Condition.field).getD "") operator = some p) :
      Grants catalog d (.update g c p)
  | value (g c : NodeId) (value : String) : Grants catalog d (.update g c (.ofValue value))
  | other {a : Action} (keeps : a.isReplace = false) (moves : a.isUpdate = false) :
      Grants catalog d a

theorem Grants.isReplace {catalog : Catalog} {d : Draft} {a : Action} (h : Grants catalog d a) :
    a.isReplace = false := by
  cases h with
  | field | operator | value => rfl
  | other keeps _ => exact keeps

theorem ok_of_bind {α β : Type} {x : Except ConsoleError α} {f : α → Except ConsoleError β} {b : β}
    (h : x >>= f = .ok b) : ∃ a, x = .ok a ∧ f a = .ok b := by
  cases x with
  | error e => cases h
  | ok a => exact ⟨a, rfl, h⟩

theorem orElse_eq_ok {α : Type} {error : ConsoleError} {found : Option α} {a : α}
    (h : orElse error found = .ok a) : found = some a := by
  cases found with
  | none => cases h
  | some b => cases h; rfl

/-- Whether a query is run or not, something is printed and nothing is changed. -/
theorem run_eq_print (d : Draft) : Console.run d = print d (Console.run d).output := by
  unfold Console.run
  split <;> rfl

theorem run_draft (d : Draft) : (Console.run d).draft = d := congrArg Reply.draft (run_eq_print d)

theorem act_draft (d : Draft) (a : Action) : (act d a).draft = (d.perform a).1 := by
  unfold act
  obtain ⟨next, changed⟩ := d.perform a
  rfl

section
variable {files : Files} {catalog : Catalog} {d : Draft}

theorem granted_of_act {a : Action} {reply : Reply} (granted : Grants catalog d a)
    (h : Except.ok (ε := ConsoleError) (act d a) = .ok reply) :
    reply.draft = d ∨ ∃ a, Grants catalog d a ∧ reply.draft = (d.perform a).1 := by
  refine .inr ⟨a, granted, ?_⟩
  rw [← Except.ok.inj h, act_draft]

/-- A command without a file to read leaves the draft alone or does something that is granted. -/
theorem execute_cases {command : Command} {reply : Reply}
    (h : command.execute files catalog d = .ok reply) (unloaded : command.file? = none) :
    reply.draft = d ∨ ∃ a, Grants catalog d a ∧ reply.draft = (d.perform a).1 := by
  cases command with
  | nothing | help | quit | «show» | crumbs | query | unknown =>
    exact .inl (congrArg Reply.draft (Except.ok.inj h)).symm
  | run => exact .inl ((congrArg Reply.draft (Except.ok.inj h)).symm.trans (run_draft d))
  | fields =>
    obtain ⟨_, _, h⟩ := ok_of_bind h
    exact .inl (congrArg Reply.draft (Except.ok.inj h)).symm
  | set word field =>
    obtain ⟨⟨g, c⟩, _, h⟩ := ok_of_bind h
    obtain ⟨path, _, h⟩ := ok_of_bind h
    obtain ⟨p, chosen, h⟩ := ok_of_bind h
    exact granted_of_act (.field (orElse_eq_ok chosen)) h
  | op word operator =>
    obtain ⟨⟨g, c⟩, _, h⟩ := ok_of_bind h
    obtain ⟨name, _, h⟩ := ok_of_bind h
    obtain ⟨p, chosen, h⟩ := ok_of_bind h
    exact granted_of_act (.operator (orElse_eq_ok chosen)) h
  | value word words =>
    obtain ⟨⟨g, c⟩, _, h⟩ := ok_of_bind h
    exact granted_of_act (.value g c _) h
  | add word =>
    obtain ⟨g, _, h⟩ := ok_of_bind h
    exact granted_of_act (a := .add g) (.other rfl rfl) h
  | addAfter word =>
    obtain ⟨g, _, h⟩ := ok_of_bind h
    exact granted_of_act (a := .addAfter g) (.other rfl rfl) h
  | split word =>
    obtain ⟨⟨g, c⟩, _, h⟩ := ok_of_bind h
    exact granted_of_act (a := .split g c) (.other rfl rfl) h
  | delete word =>
    obtain ⟨⟨g, c⟩, _, h⟩ := ok_of_bind h
    exact granted_of_act (a := .delete g c) (.other rfl rfl) h
  | cut word =>
    obtain ⟨_, _, h⟩ := ok_of_bind h
    obtain ⟨_, _, h⟩ := ok_of_bind h
    obtain ⟨crumb, _, h⟩ := ok_of_bind h
    exact granted_of_act (a := .cutTo crumb) (.other rfl rfl) h
  | reset => exact granted_of_act (a := .reset) (.other rfl rfl) h
  | load word =>
    obtain rfl : word = none := unloaded
    cases h

theorem answer_cases {line : String} (unloaded : (Command.ofLine line).file? = none) :
    (answer files catalog d line).draft = d ∨
      ∃ a, Grants catalog d a ∧ (answer files catalog d line).draft = (d.perform a).1 := by
  unfold answer
  cases executed : (Command.ofLine line).execute files catalog d with
  | error e => exact .inl rfl
  | ok reply => exact execute_cases executed unloaded

end

/-- The draft once the lines have been answered one after the other. -/
def follow (files : Files) (catalog : Catalog) (d : Draft) (lines : List String) : Draft :=
  lines.foldl (fun d line => (answer files catalog d line).draft) d

/-- What is kept by all that is granted is kept by lines that read no file. -/
theorem follow_preserves {files : Files} {catalog : Catalog} {P : Draft → Prop}
    (step : ∀ d, P d → ∀ {a}, Grants catalog d a → P (d.perform a).1) {d : Draft} (h : P d)
    {lines : List String} (unloaded : ∀ line ∈ lines, (Command.ofLine line).file? = none) :
    P (follow files catalog d lines) := by
  induction lines generalizing d with
  | nil => exact h
  | cons line rest ih =>
    obtain ⟨first, later⟩ := List.forall_mem_cons.mp unloaded
    have kept : P (answer files catalog d line).draft := by
      rcases answer_cases first with same | ⟨a, granted, next⟩
      · rwa [same]
      · rw [next]
        exact step d h granted
    exact ih kept later

end Console

end FilterTree
