import FilterTree.Proofs.Commands

/-!
# Commands that work in place

`Command.execute` returns a new draft or a complaint, so a refused command cannot have done
anything. A console that holds its draft in a variable could: what is changed before a complaint
stays changed. The commands are written down for such a console, step by step, and come to the same.
-/

namespace FilterTree

namespace Console

/-- The draft that is worked on, and all that has been printed. -/
structure Scene where
  draft : Draft
  printed : String

/-- A part of a command. It may look at the scene, change it and break off with a complaint; a
change that was made before stays. -/
abbrev Stage := EStateM ConsoleError Scene

def consult {α : Type} (look : Draft → Except ConsoleError α) : Stage α := fun s =>
  match look s.draft with
  | .ok a => .ok a s
  | .error e => .error e s

def say (text : String) : Stage Unit := modify fun s => { s with printed := s.printed ++ text }

def display (view : Draft → String) : Stage Unit := do say (view (← get).draft)

def report (a : Action) : Stage Unit := do
  let changed ← modifyGet fun s =>
    let (next, changed) := s.draft.perform a
    (changed, { s with draft := next })
  unless changed do say (Screen.line "(未改变)")

end Console

section
open Console

/-- Carries out a command in place, and returns whether the console goes on. -/
def Command.proceed (files : Files) (catalog : Catalog) : Command → Stage Bool
  | .nothing => return true
  | .help => do
    say (Screen.line Console.help)
    return true
  | .quit => return false
  | .show => do
    display fun d => Screen.model d.model
    return true
  | .fields => do
    let fields ← consult fun d => (catalog.fields d.table).mapError ConsoleError.catalog
    say (Screen.fields fields)
    return true
  | .set word field => do
    let (g, c) ← consult fun d => Console.condition d word
    let field ← consult fun _ => argument "field" field
    let p ← consult fun d => orElse (.noSuchField d.table field) (catalog.fieldPatch? d.table field)
    report (.update g c p)
    return true
  | .op word operator => do
    let (g, c) ← consult fun d => Console.condition d word
    let operator ← consult fun _ => argument "operator" operator
    let p ← consult fun d =>
      let field := ((d.model.condition? g c).map Condition.field).getD ""
      orElse (.noSuchOperator field operator) (catalog.operatorPatch? d.table field operator)
    report (.update g c p)
    return true
  | .value word words => do
    let (g, c) ← consult fun d => Console.condition d word
    report (.update g c (.ofValue (" ".intercalate words)))
    return true
  | .add word => do
    let g ← consult fun d => Console.group d word
    report (.add g)
    return true
  | .addAfter word => do
    let g ← consult fun d => Console.group d word
    report (.addAfter g)
    return true
  | .split word => do
    let (g, c) ← consult fun d => Console.condition d word
    report (.split g c)
    return true
  | .delete word => do
    let (g, c) ← consult fun d => Console.condition d word
    report (.delete g c)
    return true
  | .crumbs => do
    display fun d => Screen.trail d.model.trail
    return true
  | .cut word => do
    let n ← consult fun _ => argument "n" word
    let index ← consult fun _ => (Numeral.read n).mapError ConsoleError.noNumeral
    let crumb ← consult fun d => orElse (.noSuchCrumb index) d.model.trail[index]?
    report (.cutTo crumb)
    return true
  | .query => do
    display fun d => Screen.line d.model.encode
    return true
  | .run => do
    display fun d => (Console.run d).output
    return true
  | .load word => do
    let path ← consult fun _ => argument "file.json" word
    let m ← consult fun _ => modelOf files path
    report (.replace m)
    return true
  | .reset => do
    report .reset
    return true
  | .unknown word => do
    say (Screen.line ("未知命令: " ++ word ++ " (输入 help 查看帮助)"))
    return true

end

namespace Console

/-- The scene after an outcome: a reply prints its text and puts its draft in place, a complaint
leaves everything as it was. -/
def Scene.after (s : Scene) : Except ConsoleError Reply → EStateM.Result ConsoleError Scene Bool
  | .ok reply => .ok reply.goesOn ⟨reply.draft, s.printed ++ reply.output⟩
  | .error e => .error e s

/-- On the draft `d`, whatever has been printed, the stage ends as the outcome says. -/
def Agrees (d : Draft) (stage : Stage Bool) (outcome : Except ConsoleError Reply) : Prop :=
  ∀ printed, stage.run ⟨d, printed⟩ = Scene.after ⟨d, printed⟩ outcome

section
variable {files : Files} {catalog : Catalog} {d : Draft}

/-- A look at the draft is where both may complain; both go on with the same thing. -/
theorem agrees_consult {α : Type} {look : Draft → Except ConsoleError α} {stage : α → Stage Bool}
    {outcome : α → Except ConsoleError Reply} (agree : ∀ a, Agrees d (stage a) (outcome a)) :
    Agrees d (consult look >>= stage) (look d >>= outcome) := by
  intro printed
  have looked : (consult look >>= stage).run ⟨d, printed⟩ =
      match look d with
      | .ok a => (stage a).run ⟨d, printed⟩
      | .error e => .error e ⟨d, printed⟩ := by
    cases found : look d <;> simp [consult, EStateM.run, bind, EStateM.bind, found]
  rw [looked]
  cases look d with
  | error e => rfl
  | ok a => exact agree a printed

theorem agrees_return (goesOn : Bool) : Agrees d (return goesOn) (.ok ⟨"", d, goesOn⟩) := by
  intro printed
  rw [Scene.after, String.append_empty]
  rfl

theorem agrees_say (text : String) : Agrees d (do say text; return true) (.ok (print d text)) :=
  fun _ => rfl

theorem agrees_display (view : Draft → String) :
    Agrees d (do display view; return true) (.ok (print d (view d))) := fun _ => rfl

theorem agrees_report (a : Action) : Agrees d (do report a; return true) (.ok (act d a)) := by
  intro printed
  have acted : act d a =
      ⟨if (d.perform a).2 then "" else Screen.line "(未改变)", (d.perform a).1, true⟩ := rfl
  have reported : (do report a; return true : Stage Bool).run ⟨d, printed⟩ =
      ((if (d.perform a).2 then pure () else say (Screen.line "(未改变)")) >>=
        fun _ => pure true : Stage Bool).run ⟨(d.perform a).1, printed⟩ := rfl
  rw [acted, reported]
  -- the draft is in place already; what is left is to tell whether it changed
  cases (d.perform a).2 with
  | true => exact agrees_return true printed
  | false => exact agrees_say _ printed

/-- A command that works in place ends as its outcome says: every complaint comes before the draft
and the screen are touched. -/
theorem proceed_agrees (command : Command) :
    Agrees d (command.proceed files catalog) (command.execute files catalog d) := by
  cases command with
  | nothing => exact agrees_return true
  | help => exact agrees_say _
  | quit => exact agrees_return false
  | «show» => exact agrees_display fun d => Screen.model d.model
  | fields => exact agrees_consult fun fields => agrees_say (Screen.fields fields)
  | set word field =>
    refine agrees_consult fun (g, c) => ?_
    refine agrees_consult fun field => ?_
    exact agrees_consult fun p => agrees_report (.update g c p)
  | op word operator =>
    refine agrees_consult fun (g, c) => ?_
    refine agrees_consult fun operator => ?_
    exact agrees_consult fun p => agrees_report (.update g c p)
  | value word words => exact agrees_consult fun (g, c) => agrees_report (.update g c _)
  | add word => exact agrees_consult fun g => agrees_report (.add g)
  | addAfter word => exact agrees_consult fun g => agrees_report (.addAfter g)
  | split word => exact agrees_consult fun (g, c) => agrees_report (.split g c)
  | delete word => exact agrees_consult fun (g, c) => agrees_report (.delete g c)
  | crumbs => exact agrees_display fun d => Screen.trail d.model.trail
  | cut word =>
    refine agrees_consult fun n => ?_
    refine agrees_consult fun index => ?_
    exact agrees_consult fun crumb => agrees_report (.cutTo crumb)
  | query => exact agrees_display fun d => Screen.line d.model.encode
  | run =>
    rw [Command.execute, run_eq_print]
    exact agrees_display fun d => (Console.run d).output
  | load word =>
    refine agrees_consult fun path => ?_
    exact agrees_consult fun m => agrees_report (.replace m)
  | reset => exact agrees_report .reset
  | unknown word => exact agrees_say _

end

end Console

end FilterTree
