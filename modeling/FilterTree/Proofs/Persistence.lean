import FilterTree.Proofs.Lifetime
import FilterTree.Proofs.Nesting
import FilterTree.Proofs.Recital

namespace FilterTree

open Document Json

namespace Model

section
variable {m : Model}

theorem isWordy_toJson (m : Model) : m.toJson.isWordy = true := by
  obtain ⟨roots⟩ := m
  show wordyItems (roots.map Group.toJson) = true
  induction roots with
  | nil => rfl
  | cons g rest ih => exact Bool.and_eq_true_iff.mpr ⟨Group.isWordy_toJson g, ih⟩

theorem rootsOfJson?_toJson (shallow : m.toJson.depth ≤ maxDepth) :
    rootsOfJson? m.toJson = some m.roots := by
  apply list?_map
  intro g hg
  have below : (Group.toJson g).depth ≤ depthItems (m.roots.map Group.toJson) :=
    depth_le_of_mem_items (List.mem_map_of_mem hg)
  have whole : depthItems (m.roots.map Group.toJson) + 1 ≤ maxDepth := shallow
  exact Group.ofJson?_toJson (by omega)

/-- A valid model is read back from its text, if it is not nested too deep. -/
theorem ofDocument?_document (valid : m.Valid) (shallow : m.toJson.depth ≤ maxDepth) :
    ofDocument? m.document = .ok m := by
  rw [ofDocument?, document, read?_render m.isWordy_toJson, Option.bind_some,
    rootsOfJson?_toJson shallow]
  exact checked?_eq_ok_iff.mpr ⟨rfl, accepted_iff_valid.mpr valid⟩

theorem ofStream?_document (valid : m.Valid) (shallow : m.toJson.depth ≤ maxDepth) :
    ofStream? m.document = .ok m := by
  have checked : checked? m.roots = .ok m :=
    checked?_eq_ok_iff.mpr ⟨rfl, accepted_iff_valid.mpr valid⟩
  rw [ofStream?, document, readFront?_render m.isWordy_toJson]
  simp only [rootsOfJson?_toJson shallow, checked]
  rfl

/-- The model was read from a text. -/
def Opened (m : Model) : Prop := ∃ text, ofDocument? text = .ok m ∨ ofStream? text = .ok m

theorem Opened.read (h : m.Opened) : ∃ j, rootsOfJson? j = some m.roots ∧ m.Accepted := by
  obtain ⟨text, read | read⟩ := h
  · exact read_of_ofDocument? read
  · exact read_of_ofStream? read

theorem Opened.valid (h : m.Opened) : m.Valid := by
  obtain ⟨_, _, accepted⟩ := h.read
  exact accepted_iff_valid.mp accepted

theorem Opened.depth_le (h : m.Opened) : m.toJson.depth ≤ maxDepth := by
  obtain ⟨j, made, _⟩ := h.read
  exact depth_of_rootsOfJson? made

end

end Model

theorem Model.depth_blank (fresh : Fresh) : (blank fresh).toJson.depth = 6 := by
  rw [depth_toJson, Forest.nesting_blank]

namespace Draft

theorem depth_of_begun {supply : Supply} {d : Draft} (h : d.Begun Model.Opened supply) :
    d.model.toJson.depth ≤ maxDepth := by
  cases h with
  | blank table =>
    show (Model.blank supply.next).toJson.depth ≤ 127
    rw [Model.depth_blank]
    omega
  | opened table read spares => exact read.depth_le

theorem depth_perform {d : Draft} (h : d.Sound) (shallow : d.model.toJson.depth ≤ maxDepth)
    {a : Action} (admissible : a.Admissible Model.Opened d.supply) :
    (d.perform a).1.model.toJson.depth ≤ maxDepth := by
  rcases perform_cases d a with same | next
  · rwa [same]
  rw [next]
  cases replaces : a.isReplace with
  | false =>
    have deep := Action.nesting_apply_le h.valid d.supply.next replaces
    have bound : d.model.toJson.depth ≤ 127 := shallow
    rw [Model.depth_toJson] at bound
    show (a.apply d.supply.next d.model).model.toJson.depth ≤ 127
    rw [Model.depth_toJson]
    omega
  | true =>
    cases a with
    | replace m => exact admissible.1.depth_le
    | update | add | addAfter | split | delete | cut | cutTo | reset => cases replaces

theorem depth_of_run {d e : Draft} {actions : List Action} (h : d.Sound)
    (shallow : d.model.toJson.depth ≤ maxDepth) (run : d.Run Model.Opened actions e) :
    e.model.toJson.depth ≤ maxDepth := by
  induction run with
  | nil => exact shallow
  | cons admissible _ ih =>
    exact ih (sound_perform h (fun _ => Model.Opened.valid) admissible)
      (depth_perform h shallow admissible)

/-- **What is written is read back.** Let a draft begin blank or with a model that was read from a
text, and let anything be done to it, also replacing its model by another that was read. Then the
text of its model is read as just this model, in both orders of checking, whatever its texts are
made of; for nothing that is done nests it deeper than documents may. -/
theorem run_document {supply : Supply} (distinct : supply.Distinct) {d e : Draft}
    {actions : List Action} (begun : d.Begun Model.Opened supply)
    (run : d.Run Model.Opened actions e) :
    Model.ofDocument? e.model.document = .ok e.model ∧
      Model.ofStream? e.model.document = .ok e.model ∧ e.model.toJson.depth ≤ maxDepth := by
  have valid : ∀ m : Model, m.Opened → m.Valid := fun _ => Model.Opened.valid
  have start := sound_of_begun distinct valid begun
  have sound := sound_of_run valid start run
  have shallow := depth_of_run start (depth_of_begun begun) run
  exact ⟨Model.ofDocument?_document sound.valid shallow,
    Model.ofStream?_document sound.valid shallow, shallow⟩

/-- The supply without its first batch has no identifier of the branching model. -/
theorem spares_branching : tally.rest.Spares Model.branching.ids := spares_tally (by decide)

/-- A draft begins with two roots. A condition gets a value of quotes, a control character and a
character outside the basic plane, another one is split off with a blank alternative. -/
theorem run_document_branching :
    let d : Draft := ⟨"incident", Model.branching, tally.rest⟩
    let actions : List Action :=
      [.update ⟨"one"⟩ ⟨"d"⟩ { value := some "\"\\\u0007𝄞" }, .split ⟨"three"⟩ ⟨"a"⟩]
    ∃ e, d.Begun Model.Opened tally.rest ∧ d.Run Model.Opened actions e ∧
      e.model.leaves.map (·.value) = ["1", "1", "", "1", "\"\\\u0007𝄞", "1", "1"] ∧
      Model.ofDocument? e.model.document = .ok e.model ∧
      Model.ofStream? e.model.document = .ok e.model ∧ e.model.toJson.depth ≤ maxDepth := by
  intro d actions
  have valid : Model.branching.Valid := Model.accepted_iff_valid.mp rfl
  have opened : Model.branching.Opened :=
    ⟨_, .inl (Model.ofDocument?_document valid (by decide))⟩
  have begun : d.Begun Model.Opened tally.rest := .opened "incident" opened spares_branching
  have run : d.Run Model.Opened actions _ := .cons trivial (.cons trivial (.nil _))
  exact ⟨_, begun, run, rfl, run_document tally_distinct.rest begun run⟩

end Draft

end FilterTree
