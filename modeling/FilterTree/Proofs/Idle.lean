import FilterTree.Console.Program
import FilterTree.Proofs.InPlace
import FilterTree.Proofs.Lifetime

/-!
# Idle lines

A line that is refused, or that only asks to see something, leaves no trace: the draft after it is
the draft before it. So such lines can be left out of a conversation, and no other line notices.
-/

namespace FilterTree

/-- Whether the command only shows something, whatever is given with it. -/
def Command.looks : Command → Bool
  | .nothing | .help | .show | .fields | .crumbs | .query | .run | .unknown _ => true
  | _ => false

namespace Console

/-- On the draft `d` the line is refused, or it only shows something. -/
def Idle (files : Files) (catalog : Catalog) (d : Draft) (line : String) : Prop :=
  (∃ e, (Command.ofLine line).execute files catalog d = .error e) ∨
    (Command.ofLine line).looks = true

/-- A line, and the files as they are when it is answered. -/
structure Turn where
  files : Files
  line : String

def replies (catalog : Catalog) (d : Draft) : List Turn → List Reply
  | [] => []
  | t :: rest =>
    let reply := answer t.files catalog d t.line
    reply :: if reply.goesOn then replies catalog reply.draft rest else []

def final (d : Draft) (given : List Reply) : Draft := (given.getLast?.map Reply.draft).getD d

/-- What is left of a list of which each entry says whether it stays. -/
def kept {α : Type} (marked : List (α × Bool)) : List α := (marked.filter Prod.snd).map Prod.fst

/-- Each line that is not marked to stay is idle where it stands among the others. -/
def OmitsIdle (catalog : Catalog) (d : Draft) : List (Turn × Bool) → Prop
  | [] => True
  | (t, stays) :: rest =>
    (stays = false → Idle t.files catalog d t.line) ∧
      OmitsIdle catalog (answer t.files catalog d t.line).draft rest

@[simp] theorem final_nil (d : Draft) : final d [] = d := rfl

@[simp] theorem final_cons (d : Draft) (reply : Reply) (later : List Reply) :
    final d (reply :: later) = final reply.draft later := by
  rw [final, final, List.getLast?_cons]
  cases later.getLast? <;> rfl

section
variable {files : Files} {catalog : Catalog} {d : Draft}

/-- A command that only shows something replies with the draft as it is, and the console goes on. -/
theorem looks_reply {command : Command} {reply : Reply} (looks : command.looks = true)
    (executed : command.execute files catalog d = .ok reply) :
    reply.draft = d ∧ reply.goesOn = true := by
  cases command with
  | nothing | help | «show» | crumbs | query | unknown =>
    obtain rfl := Except.ok.inj executed
    exact ⟨rfl, rfl⟩
  | run =>
    obtain rfl := Except.ok.inj executed
    rw [run_eq_print]
    exact ⟨rfl, rfl⟩
  | fields =>
    obtain ⟨fields, _, shown⟩ := ok_of_bind executed
    obtain rfl := Except.ok.inj shown
    exact ⟨rfl, rfl⟩
  | _ => cases looks

theorem answer_idle {line : String} (idle : Idle files catalog d line) :
    (answer files catalog d line).draft = d ∧ (answer files catalog d line).goesOn = true := by
  unfold answer
  cases executed : (Command.ofLine line).execute files catalog d with
  | error e => exact ⟨rfl, rfl⟩
  | ok reply =>
    rcases idle with ⟨e, refused⟩ | looks
    · rw [executed] at refused
      cases refused
    · exact looks_reply looks executed

/-- A command in place that is refused leaves the whole scene, and one that only shows something the
draft. -/
theorem proceed_idle (files : Files) (catalog : Catalog) (command : Command) (s : Scene) :
    (∀ e t, (command.proceed files catalog).run s = .error e t → t = s) ∧
      (command.looks = true →
        ∀ goesOn t, (command.proceed files catalog).run s = .ok goesOn t → t.draft = s.draft) := by
  have agree : (command.proceed files catalog).run s =
      s.after (command.execute files catalog s.draft) := proceed_agrees command s.printed
  rw [agree]
  cases executed : command.execute files catalog s.draft with
  | error e =>
    refine ⟨fun _ _ refused => ?_, fun _ _ _ done => (nomatch done)⟩
    cases refused
    rfl
  | ok reply =>
    refine ⟨fun _ _ refused => (nomatch refused), fun looks _ _ done => ?_⟩
    cases done
    exact (looks_reply looks executed).1

end

/-- The program prints the replies to the lines that are typed, and ends with the draft after all. -/
theorem converse_eq (files : Files) (catalog : Catalog) (d : Draft) {typed lines : List String}
    (clear : typed.map Text.typed? = lines.map some) :
    converse files catalog d typed =
      let given := replies catalog d (lines.map fun line => ⟨files, line⟩)
      ⟨String.join (given.map Reply.output), final d given, .done⟩ := by
  induction lines generalizing d typed with
  | nil =>
    obtain rfl := List.map_eq_nil_iff.mp clear
    rfl
  | cons line later ih =>
    obtain ⟨first, rest, rfl, read, clear⟩ := List.map_eq_cons_iff.mp clear
    rw [converse, read]
    by_cases goesOn : (answer files catalog d line).goesOn = true
    · simp only [List.map_cons, replies, goesOn, ↓reduceIte, ih _ clear, String.join_cons,
        final_cons]
    · simp [replies, goesOn, final]

/-- Lines that are idle where they stand can be left out: the others get the same replies. -/
theorem replies_kept (catalog : Catalog) (turns : List (Turn × Bool)) :
    ∀ d, OmitsIdle catalog d turns →
      replies catalog d (kept turns) =
          kept ((replies catalog d (turns.map Prod.fst)).zip (turns.map Prod.snd)) ∧
        final d (replies catalog d (kept turns)) =
          final d (replies catalog d (turns.map Prod.fst)) := by
  induction turns with
  | nil => exact fun d _ => ⟨rfl, rfl⟩
  | cons turn rest ih =>
    obtain ⟨t, stays⟩ := turn
    -- for every draft: the rest is answered from the draft that the first line leaves
    rintro d ⟨idle, omits⟩
    obtain ⟨same, last⟩ := ih _ omits
    have all : ((t, stays) :: rest).map Prod.fst = t :: rest.map Prod.fst := rfl
    have marks : ((t, stays) :: rest).map Prod.snd = stays :: rest.map Prod.snd := rfl
    rw [all, marks, replies]
    cases stays with
    | true =>
      have stay : kept ((t, true) :: rest) = t :: kept rest := rfl
      rw [stay, replies]
      by_cases goesOn : (answer t.files catalog d t.line).goesOn = true
      · simp only [goesOn, ↓reduceIte, final_cons]
        exact ⟨congrArg (answer t.files catalog d t.line :: ·) same, last⟩
      · simp only [goesOn, Bool.false_eq_true, ↓reduceIte, and_true]
        rfl
    | false =>
      have gone : kept ((t, false) :: rest) = kept rest := rfl
      obtain ⟨unchanged, goesOn⟩ := answer_idle (idle rfl)
      rw [unchanged] at same last
      simp only [gone, goesOn, ↓reduceIte, final_cons, unchanged]
      exact ⟨same, last⟩

/-- **Idle lines are invisible.** A command that is refused has touched neither the draft nor the
screen, and a command that only shows something has not touched the draft, even in a console that
works on them in place. After an idle line the table, the model and the identifiers still to be
given out are what they were. So if any idle lines are left out of a conversation, the other lines
get the same replies, to the letter, and the draft at the end is the same. -/
theorem idle_invisible (catalog : Catalog) :
    (∀ files line s e t,
        ((Command.ofLine line).proceed files catalog).run s = .error e t → t = s) ∧
      (∀ files line s goesOn t, (Command.ofLine line).looks = true →
        ((Command.ofLine line).proceed files catalog).run s = .ok goesOn t → t.draft = s.draft) ∧
      (∀ files d line, Idle files catalog d line → (answer files catalog d line).draft = d) ∧
      ∀ d turns, OmitsIdle catalog d turns →
        replies catalog d (kept turns) =
            kept ((replies catalog d (turns.map Prod.fst)).zip (turns.map Prod.snd)) ∧
          final d (replies catalog d (kept turns)) =
            final d (replies catalog d (turns.map Prod.fst)) :=
  ⟨fun files line s => (proceed_idle files catalog (Command.ofLine line) s).1,
    fun files line s goesOn t looks =>
      (proceed_idle files catalog (Command.ofLine line) s).2 looks goesOn t,
    fun _ _ _ idle => (answer_idle idle).1, fun d turns => replies_kept catalog turns d⟩

/-- A group that is not there, a file that is missing and the number of no crumb are refused;
without these lines and a look at the tree, the two edits and the query between them are answered
alike. -/
theorem idle_invisible_refusals :
    let turn (stays : Bool) (line : String) : Turn × Bool :=
      (⟨fun _ => .error .missing, line⟩, stays)
    let d := Draft.start "incident" Draft.tally
    let turns := [turn false "add x", turn true "new g", turn false "load filter.json",
      turn false "show", turn true "query", turn false "trunc 7", turn true "value c+ 1"]
    OmitsIdle .sample d turns ∧
      replies .sample d (kept turns) =
          kept ((replies .sample d (turns.map Prod.fst)).zip (turns.map Prod.snd)) ∧
      final d (replies .sample d (kept turns)) =
        final d (replies .sample d (turns.map Prod.fst)) := by
  intro turn d turns
  have omits : OmitsIdle .sample d turns := by
    refine ⟨fun _ => .inl ⟨.noSuchGroup "x", ?_⟩, nofun,
      fun _ => .inl ⟨.unreadable "filter.json" .missing, ?_⟩, fun _ => .inr ?_, nofun,
      fun _ => .inl ⟨.noSuchCrumb 7, ?_⟩, nofun, trivial⟩
    · rfl
    · rfl
    · rfl
    · rfl
  obtain ⟨_, _, _, conversations⟩ := idle_invisible .sample
  obtain ⟨same, last⟩ := conversations d turns omits
  exact ⟨omits, same, last⟩

end Console

end FilterTree
