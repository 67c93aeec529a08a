import FilterTree.Proofs.Addressing
import FilterTree.Proofs.Commands
import FilterTree.Proofs.Cutting
import FilterTree.Proofs.Persistence
import FilterTree.Proofs.Placement

/-!
# A conversation with the console

The console answers one line after the other. A line that edits finds its node by the opening of an
identifier and hands over the identifiers of the node and of the group that holds it; the edit looks
for them again, by ways of its own. It always finds them, and the same node.
-/

namespace FilterTree

namespace Console

/-- The lines of a conversation lead to the draft. A file may be another one whenever it is read, and
its model names no node by an identifier that is still to come. -/
inductive Reached (catalog : Catalog) (table : String) (supply : Supply) : Draft → Prop where
  | start : Reached catalog table supply (.start table supply)
  | next {d : Draft} {files : Files} {line : String} (reached : Reached catalog table supply d)
      (spares : ∀ path m, (Command.ofLine line).file? = some path → modelOf files path = .ok m →
        d.supply.Spares m.ids) :
      Reached catalog table supply (answer files catalog d line).draft

theorem accepted_of_modelOf {files : Files} {path : String} {m : Model}
    (h : modelOf files path = .ok m) : m.Accepted := by
  unfold modelOf at h
  split at h
  · cases h
  · split at h
    · rename_i read
      cases h
      obtain ⟨_, _, accepted⟩ := Model.read_of_ofStream? read
      exact accepted
    · cases h
    · cases h

/-- A file with the text of a model is read as this model. -/
theorem modelOf_document {files : Files} {path : String} {m : Model} (valid : m.Valid)
    (shallow : m.toJson.depth ≤ Document.maxDepth) (file : files path = .ok m.document) :
    modelOf files path = .ok m := by
  unfold modelOf
  rw [file]
  simp only [Model.ofStream?_document valid shallow]

/-- A line that loads a model puts it in the place of the one before. -/
theorem answer_load {files : Files} {catalog : Catalog} {d : Draft} {line path : String} {m : Model}
    (command : Command.ofLine line = .load (some path)) (read : modelOf files path = .ok m) :
    (answer files catalog d line).draft = (d.perform (.replace m)).1 := by
  have loaded : (Command.load (some path)).execute files catalog d = .ok (act d (.replace m)) := by
    simp [Command.execute, argument, read, bind, Except.bind, pure, Except.pure]
  rw [answer, command, loaded, act_draft]

theorem sound_answer {files : Files} {catalog : Catalog} {d : Draft} {line : String} (sound : d.Sound)
    (spares : ∀ path m, (Command.ofLine line).file? = some path → modelOf files path = .ok m →
      d.supply.Spares m.ids) : (answer files catalog d line).draft.Sound := by
  have accepted : ∀ m : Model, m.Accepted → m.Valid := fun _ => Model.accepted_iff_valid.mp
  cases file : (Command.ofLine line).file? with
  | none =>
    rcases answer_cases file with same | ⟨a, granted, next⟩
    · rwa [same]
    · rw [next]
      exact Draft.sound_perform sound accepted (Action.admissible_of_isReplace granted.isReplace)
  | some path =>
    have command : Command.ofLine line = .load (some path) := by
      cases command : Command.ofLine line <;> rw [command] at file <;> cases file
      rfl
    cases read : modelOf files path with
    | error e =>
      have refused : (Command.load (some path)).execute files catalog d = .error e := by
        simp [Command.execute, argument, read, bind, Except.bind]
      rw [answer, command, refused]
      exact sound
    | ok m =>
      rw [answer_load command read]
      exact Draft.sound_perform sound accepted ⟨accepted_of_modelOf read, spares path m file read⟩

theorem sound_of_reached {catalog : Catalog} {table : String} {supply : Supply}
    (distinct : supply.Distinct) {d : Draft} (reached : Reached catalog table supply d) : d.Sound := by
  induction reached with
  | start =>
    exact Draft.sound_of_begun distinct (fun _ => Model.accepted_iff_valid.mp) (.blank table)
  | next _ spares ih => exact sound_answer ih spares

/-! ## Commands that edit -/

/-- What a command with the opening of an identifier does to the draft: the action, and the model that
comes of it. The condition or group that is changed is the only one whose identifier starts so. -/
inductive Edits (catalog : Catalog) (d : Draft) : Command → Action → Model → Prop where
  | set {opening field : String} {g : Group} {c : Condition} {p : Patch} {k : Model}
      (one : d.model.OnlyCondition opening g c) (chosen : catalog.fieldPatch? d.table field = some p)
      (made : d.model.Patched g c p k) :
      Edits catalog d (.set (some opening) (some field)) (.update g.id c.id p) k
  | op {opening operator : String} {g : Group} {c : Condition} {p : Patch} {k : Model}
      (one : d.model.OnlyCondition opening g c)
      (chosen : catalog.operatorPatch? d.table c.field operator = some p)
      (made : d.model.Patched g c p k) :
      Edits catalog d (.op (some opening) (some operator)) (.update g.id c.id p) k
  | value {opening : String} {words : List String} {g : Group} {c : Condition} {k : Model}
      (one : d.model.OnlyCondition opening g c)
      (made : d.model.Patched g c (.ofValue (" ".intercalate words)) k) :
      Edits catalog d (.value (some opening) words)
        (.update g.id c.id (.ofValue (" ".intercalate words))) k
  | add {opening : String} {g : Group} {k : Model} (one : d.model.OnlyGroup opening g)
      (made : d.model.Replaces g
        (fun rest => .group (Group.append g (.blank d.supply.next.condition)) :: rest) k) :
      Edits catalog d (.add (some opening)) (.add g.id) k
  | addAfter {opening : String} {g : Group} {k : Model} (one : d.model.OnlyGroup opening g)
      (made : d.model.Replaces g (g.growAfter d.supply.next) k) :
      Edits catalog d (.addAfter (some opening)) (.addAfter g.id) k
  | split {opening : String} {g : Group} {c : Condition} {k : Model}
      (one : d.model.OnlyCondition opening g c) (made : d.model.SplitOff d.supply.next g c k) :
      Edits catalog d (.split (some opening)) (.split g.id c.id) k
  | delete {opening : String} {g : Group} {c : Condition} {k : Model}
      (one : d.model.OnlyCondition opening g c) (made : d.model.Drops d.supply.next c k) :
      Edits catalog d (.delete (some opening)) (.delete g.id c.id) k

section
variable {files : Files} {catalog : Catalog} {d : Draft} {reply : Reply}

theorem argument_eq_ok {name word : String} {given : Option String}
    (h : argument name given = .ok word) : given = some word := by
  cases given with
  | none => cases h
  | some text => rw [Except.ok.inj h]

theorem condition_eq_ok (valid : d.model.Valid) {word : Option String} {group condition : NodeId}
    (h : Console.condition d word = .ok (group, condition)) :
    ∃ opening g c, word = some opening ∧ d.model.OnlyCondition opening g c ∧ g.id = group ∧
      c.id = condition := by
  cases word with
  | none => cases h
  | some opening =>
    obtain ⟨g, c, one, same⟩ := (Model.resolveCondition_eq_ok_iff valid).mp h
    exact ⟨opening, g, c, rfl, one, same⟩

theorem group_eq_ok (valid : d.model.Valid) {word : Option String} {group : NodeId}
    (h : Console.group d word = .ok group) :
    ∃ opening g, word = some opening ∧ d.model.OnlyGroup opening g ∧ g.id = group := by
  cases word with
  | none => cases h
  | some opening =>
    obtain ⟨g, one, same⟩ := (Model.resolveGroup_eq_ok_iff valid).mp h
    exact ⟨opening, g, rfl, one, same⟩

def unchanged : String := Screen.line "(未改变)"

theorem act_output (d : Draft) (a : Action) :
    (act d a).output = if (d.perform a).2 then "" else unchanged := by
  unfold act
  obtain ⟨next, changed⟩ := d.perform a
  rfl

/-- The action that the reply was made for has led to the model, and it has changed the draft. -/
structure Effective (d : Draft) (a : Action) (k : Model) (reply : Reply) : Prop where
  performed : d.perform a = (⟨d.table, k, d.supply.rest⟩, true)
  draft : reply.draft = ⟨d.table, k, d.supply.rest⟩
  output : reply.output = ""

theorem effective_act {a : Action} {k : Model} (applied : a.apply d.supply.next d.model = ⟨k, true⟩)
    (h : Except.ok (ε := ConsoleError) (act d a) = .ok reply) : Effective d a k reply := by
  have performed : d.perform a = (⟨d.table, k, d.supply.rest⟩, true) := by
    simp only [Draft.perform, applied, ↓reduceIte]
  rw [← Except.ok.inj h]
  exact ⟨performed, by rw [act_draft, performed], by rw [act_output, performed]; rfl⟩

end

end Console

def Command.edits : Command → Bool
  | .set _ _ | .op _ _ | .value _ _ | .add _ | .addAfter _ | .split _ | .delete _ => true
  | _ => false

/-- A cut at a crumb changes a model unless the crumb is the last one. -/
theorem Model.changed_cut_iff {m : Model} (valid : m.Valid) {i : Nat} {crumb : Crumb}
    (found : m.trail[i]? = some crumb) :
    (m.cut crumb.root crumb.leaf).changed = true ↔ i + 1 ≠ m.trail.length := by
  obtain ⟨_, full, _⟩ := valid_iff.mp valid
  obtain ⟨before, g, after, roots, root, shown, rfl⟩ := crumb_place found
  obtain ⟨_⟩ := m
  subst roots
  have parts : forest ⟨before ++ g :: after⟩ =
      before.map .group ++ ([.group g] ++ after.map .group) := by simp [forest]
  rw [parts, Forest.full_append, Forest.full_append] at full
  obtain ⟨_, whole, full⟩ := full
  have later : after ≠ [] → 0 < Forest.leafCount (after.map .group) := by
    intro ne
    exact Forest.leafCount_pos full (mt List.map_eq_nil_iff.mp ne)
  rw [root, cut_append whole, length_trail_append]
  split
  · rename_i dropped
    refine iff_of_true rfl ?_
    rcases dropped with ne | fewer
    · have := later ne
      omega
    · omega
  · rename_i last
    obtain ⟨rfl, fewer⟩ : after = [] ∧ ¬ crumb.leaf + 1 < Forest.leafCount g.children := by
      simpa using last
    refine iff_of_false Bool.false_ne_true (not_not_intro ?_)
    rw [List.map_nil, Forest.leafCount_nil]
    omega

namespace Console

variable {files : Files} {catalog : Catalog} {d : Draft} {reply : Reply}

theorem unchanged_ne : unchanged ≠ "" := by decide

/-- A cut at a number of the trail is not refused, and says so if there is nothing to cut off. -/
theorem execute_cut (valid : d.model.Valid) {word : String} {n : Nat}
    (read : Numeral.read word = .ok n) (range : n < d.model.trail.length) :
    ∃ reply, (Command.cut (some word)).execute files catalog d = .ok reply ∧
      (reply.output = unchanged ↔ n + 1 = d.model.trail.length) := by
  have found : d.model.trail[n]? = some d.model.trail[n] := List.getElem?_eq_getElem range
  refine ⟨act d (.cutTo d.model.trail[n]), ?_, ?_⟩
  · simp only [Command.execute, argument, read, found, orElse, bind, Except.bind, Except.mapError]
    rfl
  · have changes := Model.changed_cut_iff valid found
    rw [← (d.perform_cutTo _).2] at changes
    rw [act_output]
    by_cases changed : (d.perform (.cutTo d.model.trail[n])).2 = true
    · rw [if_pos changed]
      exact iff_of_false unchanged_ne.symm (changes.mp changed)
    · rw [if_neg changed]
      exact iff_of_true rfl (not_not.mp (mt changes.mpr changed))

theorem execute_set {word path : String} {group condition : NodeId} {p : Patch}
    (resolved : d.model.resolveCondition word = .ok (group, condition))
    (chosen : catalog.fieldPatch? d.table path = some p) :
    (Command.set (some word) (some path)).execute files catalog d =
      .ok (act d (.update group condition p)) := by
  simp only [Command.execute, Console.condition, argument, resolved, chosen, orElse, bind, Except.bind]
  rfl

theorem execute_value {word : String} {group condition : NodeId}
    (resolved : d.model.resolveCondition word = .ok (group, condition)) (words : List String) :
    (Command.value (some word) words).execute files catalog d =
      .ok (act d (.update group condition (.ofValue (" ".intercalate words)))) := by
  simp only [Command.execute, Console.condition, argument, resolved, bind, Except.bind]
  rfl

/-- A command that edits and is not refused has changed the model at the node that it addresses. -/
theorem edits_of_execute (valid : d.model.Valid) {command : Command} (edits : command.edits = true)
    (h : command.execute files catalog d = .ok reply) :
    ∃ a k, Edits catalog d command a k ∧ Effective d a k reply := by
  cases command with
  | set word field =>
    obtain ⟨⟨_, _⟩, found, after⟩ := ok_of_bind h
    obtain ⟨path, given, later⟩ := ok_of_bind after
    obtain ⟨p, chosen, last⟩ := ok_of_bind later
    obtain ⟨opening, g, c, rfl, one, rfl, rfl⟩ := condition_eq_ok valid found
    obtain rfl := argument_eq_ok given
    obtain ⟨k, updated, made⟩ := Model.patched_update valid one.known one.held p
    exact ⟨_, k, .set one (orElse_eq_ok chosen) made, effective_act updated last⟩
  | op word operator =>
    obtain ⟨⟨_, _⟩, found, after⟩ := ok_of_bind h
    obtain ⟨name, given, later⟩ := ok_of_bind after
    obtain ⟨p, chosen, last⟩ := ok_of_bind later
    obtain ⟨opening, g, c, rfl, one, rfl, rfl⟩ := condition_eq_ok valid found
    obtain rfl := argument_eq_ok given
    -- the operator is looked up for the field of the condition that a lookup finds: it is this one
    have field : ((d.model.condition? g.id c.id).map Condition.field).getD "" = c.field := by
      rw [Model.condition?_of_mem valid one.known one.held, Option.map_some, Option.getD_some]
    have chosen := orElse_eq_ok chosen
    rw [field] at chosen
    obtain ⟨k, updated, made⟩ := Model.patched_update valid one.known one.held p
    exact ⟨_, k, .op one chosen made, effective_act updated last⟩
  | value word words =>
    obtain ⟨⟨_, _⟩, found, last⟩ := ok_of_bind h
    obtain ⟨opening, g, c, rfl, one, rfl, rfl⟩ := condition_eq_ok valid found
    obtain ⟨k, updated, made⟩ := Model.patched_update valid one.known one.held _
    exact ⟨_, k, .value one made, effective_act updated last⟩
  | add word =>
    obtain ⟨_, found, last⟩ := ok_of_bind h
    obtain ⟨opening, g, rfl, one, rfl⟩ := group_eq_ok valid found
    obtain ⟨k, added, made⟩ := Model.replaces_add valid one.known d.supply.next
    exact ⟨_, k, .add one made, effective_act added last⟩
  | addAfter word =>
    obtain ⟨_, found, last⟩ := ok_of_bind h
    obtain ⟨opening, g, rfl, one, rfl⟩ := group_eq_ok valid found
    obtain ⟨k, added, made⟩ := Model.replaces_addAfter valid one.known d.supply.next
    exact ⟨_, k, .addAfter one made, effective_act added last⟩
  | split word =>
    obtain ⟨⟨_, _⟩, found, last⟩ := ok_of_bind h
    obtain ⟨opening, g, c, rfl, one, rfl, rfl⟩ := condition_eq_ok valid found
    obtain ⟨k, split, made⟩ := Model.splitOff_split valid one.known one.held d.supply.next
    exact ⟨_, k, .split one made, effective_act split last⟩
  | delete word =>
    obtain ⟨⟨_, _⟩, found, last⟩ := ok_of_bind h
    obtain ⟨opening, g, c, rfl, one, rfl, rfl⟩ := condition_eq_ok valid found
    obtain ⟨k, deleted, made⟩ := Model.drops_delete valid one.known one.held d.supply.next
    exact ⟨_, k, .delete one made, effective_act deleted last⟩
  | _ => cases edits

/-- **Addresses are exact and effective.** At any point of a conversation, the opening of an identifier
leads to a condition exactly if one condition has it and no other, and then to this condition and the
group that holds it; so it is with groups. A command that edits and is not refused has made its edit
at the very node, and the console never says that it changed nothing. A cut at a number of the trail
is made, and only at the last crumb the console says so. -/
theorem execute_effective {table : String} {supply : Supply} (distinct : supply.Distinct)
    (reached : Reached catalog table supply d) (files : Files) :
    (∀ opening group condition, d.model.resolveCondition opening = .ok (group, condition) ↔
        ∃ g c, d.model.OnlyCondition opening g c ∧ g.id = group ∧ c.id = condition) ∧
      (∀ opening, (∃ place, d.model.resolveCondition opening = .ok place) ↔
        ∃! c, c ∈ d.model.leaves ∧ opening.toList <+: c.id.text.toList) ∧
      (∀ opening group, d.model.resolveGroup opening = .ok group ↔
        ∃ g, d.model.OnlyGroup opening g ∧ g.id = group) ∧
      (∀ opening, (∃ group, d.model.resolveGroup opening = .ok group) ↔
        ∃! g, g ∈ d.model.groups ∧ opening.toList <+: g.id.text.toList) ∧
      (∀ command reply, command.edits = true → command.execute files catalog d = .ok reply →
        ∃ a k, Edits catalog d command a k ∧ Effective d a k reply ∧ reply.output ≠ unchanged) ∧
      ∀ word n, Numeral.read word = .ok n → n < d.model.trail.length →
        ∃ reply, (Command.cut (some word)).execute files catalog d = .ok reply ∧
          (reply.output = unchanged ↔ n + 1 = d.model.trail.length) := by
  have valid := (sound_of_reached distinct reached).valid
  refine ⟨fun _ _ _ => Model.resolveCondition_eq_ok_iff valid,
    fun _ => Model.exists_resolveCondition_iff valid, fun _ _ => Model.resolveGroup_eq_ok_iff valid,
    fun _ => Model.exists_resolveGroup_iff valid, ?_, fun _ _ => execute_cut valid⟩
  intro command reply edits executed
  obtain ⟨a, k, made, effective⟩ := edits_of_execute valid edits executed
  exact ⟨a, k, made, effective, effective.output ▸ unchanged_ne.symm⟩

/-- With two conditions of which the name of one begins that of the other, only the longer name can be
given. A field and a value are written into that condition, a split moves it, and it stands at the last
crumb. -/
theorem execute_effective_siblings :
    let files : Files := fun _ => .error .missing
    let d := (answer files .sample (.start "incident" Draft.tally) "new g").draft
    Reached .sample "incident" Draft.tally d ∧
      d.model.resolveCondition "c+" = .ok (⟨"g+"⟩, ⟨"c+"⟩) ∧
      (¬ ∃ place, d.model.resolveCondition "c" = .ok place) ∧
      (∃ reply a k, (Command.set (some "c+") (some "priority")).execute files .sample d = .ok reply ∧
        Edits .sample d (.set (some "c+") (some "priority")) a k ∧ Effective d a k reply ∧
        reply.draft.model.leaves = [{ id := ⟨"c"⟩ },
          { id := ⟨"c+"⟩, field := "priority", fieldLabel := some "Priority",
            fieldType := some "choice" }]) ∧
      (∃ reply a k, (Command.value (some "c+") ["1", "2"]).execute files .sample d = .ok reply ∧
        Edits .sample d (.value (some "c+") ["1", "2"]) a k ∧ Effective d a k reply ∧
        reply.draft.model.leaves = [{ id := ⟨"c"⟩ }, { id := ⟨"c+"⟩, value := "1 2" }]) ∧
      (∃ reply a k, (Command.split (some "c+")).execute files .sample d = .ok reply ∧
        Edits .sample d (.split (some "c+")) a k ∧ Effective d a k reply) ∧
      ∃ reply, (Command.cut (some "1")).execute files .sample d = .ok reply ∧
        reply.output = unchanged := by
  intro files d
  have reached : Reached .sample "incident" Draft.tally d := by
    refine .next .start ?_
    intro path m file
    have opens : (Command.ofLine "new g").file? = none := by decide +kernel
    rw [opens] at file
    cases file
  have model : d.model = ⟨[⟨⟨"r"⟩, .and,
      [.group ⟨⟨"g"⟩, .and, [.condition (.blank ⟨"c"⟩)]⟩,
        .group ⟨⟨"g+"⟩, .and, [.condition (.blank ⟨"c+"⟩)]⟩]⟩]⟩ := by decide +kernel
  have resolved : d.model.resolveCondition "c+" = .ok (⟨"g+"⟩, ⟨"c+"⟩) := by rw [model]; rfl
  have two : d.model.resolveCondition "c" = .error (.conditionMatches "c" 2) := by rw [model]; rfl
  obtain ⟨_, _, _, _, edits, cut⟩ := execute_effective Draft.tally_distinct reached files
  have chosen : Catalog.sample.fieldPatch? d.table "priority" = some
      { field := some "priority", operator := some "", value := some "",
        fieldLabel := some (some "Priority"), operatorLabel := some none, displayValue := some none,
        fieldType := some (some "choice"), table := some none } := by decide +kernel
  have field : (Command.set (some "c+") (some "priority")).execute files .sample d =
      .ok (act d (.update ⟨"g+"⟩ ⟨"c+"⟩ _)) := execute_set resolved chosen
  have value : (Command.value (some "c+") ["1", "2"]).execute files .sample d =
      .ok (act d (.update ⟨"g+"⟩ ⟨"c+"⟩ _)) := execute_value resolved _
  have split : (Command.split (some "c+")).execute files .sample d =
      .ok (act d (.split ⟨"g+"⟩ ⟨"c+"⟩)) := by
    simp only [Command.execute, Console.condition, argument, resolved, bind, Except.bind]
    rfl
  obtain ⟨a₁, k₁, made₁, effective₁, _⟩ := edits _ _ rfl field
  obtain ⟨a₂, k₂, made₂, effective₂, _⟩ := edits _ _ rfl value
  obtain ⟨a₃, k₃, made₃, effective₃, _⟩ := edits _ _ rfl split
  obtain ⟨reply, done, output⟩ := cut "1" 1 rfl (by rw [model]; decide)
  refine ⟨reached, resolved, ?_, ⟨_, a₁, k₁, field, made₁, effective₁, ?_⟩,
    ⟨_, a₂, k₂, value, made₂, effective₂, ?_⟩, ⟨_, a₃, k₃, split, made₃, effective₃⟩,
    reply, done, output.mpr ?_⟩
  · rintro ⟨place, found⟩
    rw [two] at found
    cases found
  · decide +kernel
  · decide +kernel
  · rw [model]
    rfl

end Console

end FilterTree
