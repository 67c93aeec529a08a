import FilterTree.Proofs.Tidying
import Mathlib.Data.List.SplitBy

namespace FilterTree

namespace Forest

/-- The row in parts: its longest runs of AND groups, and every other node by itself. -/
def runs (f : Forest) : List Forest := f.splitBy fun a b => a.isAnd && b.isAnd

/-- What becomes of a run. AND groups become one that has the name of the first and the children of all,
and any other node stays what it is. -/
inductive Fuses : Forest → Node → Prop where
  | ands {g : Group} {more : List Group} (ands : ∀ h ∈ g :: more, h.kind = .and) :
      Fuses ((g :: more).map .group)
        (.group { g with children := (g :: more).flatMap (·.children) })
  | alone {n : Node} (other : n.isAnd = false) : Fuses [n] n

section
variable {run : Forest} {n : Node}

theorem fuses_single (n : Node) : Fuses [n] n := by
  cases and : n.isAnd with
  | false => exact .alone and
  | true =>
    cases n with
    | condition c => cases and
    | group g =>
      have one := @Fuses.ands g [] (by simpa using isAnd_group.mp and)
      simpa using one

theorem Fuses.cons {a b : Group} (ha : a.kind = .and) (hb : b.kind = .and)
    (fuses : Fuses run (.group b)) :
    Fuses (.group a :: run) (.group { a with children := a.children ++ b.children }) := by
  cases fuses with
  | @ands g more ands => exact .ands (List.forall_mem_cons.mpr ⟨ha, ands⟩)
  | alone other =>
    rw [isAnd_group.mpr hb] at other
    cases other

theorem Fuses.ne_nil (fuses : Fuses run n) : run ≠ [] := by
  cases fuses <;> simp

/-- The nodes of a run are AND groups if what becomes of it is one, and only then. -/
theorem Fuses.isAnd_eq (fuses : Fuses run n) : ∀ m ∈ run, m.isAnd = n.isAnd := by
  cases fuses with
  | @ands g more ands =>
    intro m mem
    obtain ⟨h, known, rfl⟩ := List.mem_map.mp mem
    simp [Node.isAnd, ands h known, ands g List.mem_cons_self]
  | alone other =>
    intro m mem
    rw [List.mem_singleton.mp mem]

theorem Fuses.isChain (fuses : Fuses run n) :
    run.IsChain fun a b => (a.isAnd && b.isAnd) = true := by
  have alike := fuses.isAnd_eq
  cases fuses with
  | @ands g more ands =>
    refine (List.pairwise_of_forall_mem_list fun a ha b hb => ?_).isChain
    rw [alike a ha, alike b hb, Bool.and_self]
    exact isAnd_group.mpr (ands g List.mem_cons_self)
  | alone other => exact .singleton _

end

/-- The merged row comes of the row part by part. -/
theorem exists_fuses (f : Forest) :
    ∃ parts : List Forest, parts.flatten = f ∧ List.Forall₂ Fuses parts (mergeAnds f) := by
  induction f using mergeAnds_induct with
  | nil => exact ⟨[], rfl, .nil⟩
  | stay n rest _ ih =>
    obtain ⟨parts, rfl, fuse⟩ := ih
    exact ⟨[n] :: parts, rfl, .cons (fuses_single n) fuse⟩
  | fold a b rest after ha hb _ ih =>
    obtain ⟨parts, rfl, fuse⟩ := ih
    cases fuse with
    | @cons run _ parts _ first later =>
      exact ⟨(.group a :: run) :: parts, rfl, .cons (first.cons ha hb) later⟩

/-- Parts that become a row without neighbouring AND groups are the longest runs. -/
theorem runs_eq_of_fuses {parts : List Forest} {row : Forest} (fuse : List.Forall₂ Fuses parts row)
    (apart : Apart row) : runs parts.flatten = parts := by
  induction fuse with
  | nil => rfl
  | @cons part n parts row first later ih =>
    obtain ⟨head, apart⟩ := apart_cons.mp apart
    -- the run ends with this part, as AND groups on both sides would be neighbours in the row
    have ends : ∀ x ∈ part.getLast?, ∀ y ∈ parts.flatten.head?, (x.isAnd && y.isAnd) = false := by
      intro x last y next
      cases later with
      | nil => cases next
      | @cons part' n' _ _ second _ =>
        rw [List.flatten_cons, List.head?_append_of_ne_nil _ second.ne_nil] at next
        rw [first.isAnd_eq x (List.mem_of_mem_getLast? last),
          second.isAnd_eq y (List.mem_of_mem_head? next), Bool.and_eq_false_imp]
        exact fun and => head and n' rfl
    rw [List.flatten_cons, runs, List.splitBy_append ends,
      List.splitBy_of_isChain first.ne_nil first.isChain]
    exact congrArg (part :: ·) (ih apart)

theorem runs_fuse (f : Forest) : List.Forall₂ Fuses (runs f) (mergeAnds f) := by
  obtain ⟨parts, whole, fuse⟩ := exists_fuses f
  have longest := runs_eq_of_fuses fuse (mergeAnds_apart f)
  rw [whole] at longest
  rwa [longest]

/-- What is no AND group stays, and stays in its order. -/
theorem filter_mergeAnds (f : Forest) :
    (mergeAnds f).filter (!·.isAnd) = f.filter (!·.isAnd) := by
  induction f using mergeAnds_induct with
  | nil => rfl
  | stay n rest _ ih => rw [List.filter_cons, List.filter_cons, ih]
  | fold a b rest after ha hb _ ih =>
    have gone (g : Group) (and : g.kind = .and) (row : Forest) :
        (.group g :: row : Forest).filter (!·.isAnd) = row.filter (!·.isAnd) :=
      List.filter_cons_of_neg (by simp [isAnd_group.mpr and])
    rw [gone b hb] at ih
    rw [gone a ha, gone { a with children := a.children ++ b.children } ha, ih]

/-! ## From the beginning -/

/-- The row with one more node at its end, or in the last node if both are AND groups. -/
def push (row : Forest) (n : Node) : Forest :=
  match row.getLast? with
  | none => [n]
  | some last => row.dropLast ++ last.absorb [n]

theorem push_append (before : Forest) {row : Forest} (ne : row ≠ []) (n : Node) :
    push (before ++ row) n = before ++ push row n := by
  obtain ⟨last, found⟩ := Option.ne_none_iff_exists'.mp (mt List.getLast?_eq_none_iff.mp ne)
  simp only [push, List.getLast?_append_of_ne_nil _ ne, List.dropLast_append_of_ne_nil ne, found,
    List.append_assoc]

theorem absorb_nil (n : Node) : n.absorb [] = [n] := by
  cases n <;> rfl

theorem absorb_cons (n m : Node) (row : Forest) : n.absorb (m :: row) = n.absorb [m] ++ row := by
  cases n with
  | condition c => rfl
  | group a =>
    cases m with
    | condition c => rfl
    | group b =>
      simp only [Node.absorb]
      split <;> rfl

/-- Of three nodes it does not matter which two are joined first. -/
theorem absorb_absorb (m k n : Node) : m.absorb (k.absorb [n]) = push (m.absorb [k]) n := by
  cases m with
  | condition c => rfl
  | group a =>
    cases k with
    | condition c => rfl
    | group b =>
      cases n with
      | condition c =>
        simp only [Node.absorb]
        split <;> rfl
      | group c =>
        by_cases ha : a.kind = .and <;> by_cases hb : b.kind = .and <;>
          by_cases hc : c.kind = .and <;> simp [Node.absorb, push, ha, hb, hc]

theorem absorb_push (m n : Node) (row : Forest) : m.absorb (push row n) = push (m.absorb row) n := by
  cases row with
  | nil => rw [absorb_nil]; rfl
  | cons k more =>
    cases more with
    | nil => exact absorb_absorb m k n
    | cons l more =>
      have ne : l :: more ≠ [] := List.cons_ne_nil l more
      have whole : push (k :: l :: more) n = k :: push (l :: more) n := push_append [k] ne n
      rw [whole, absorb_cons, absorb_cons m k (l :: more), push_append _ ne]

theorem mergeAnds_concat (f : Forest) (n : Node) : mergeAnds (f ++ [n]) = push (mergeAnds f) n := by
  induction f with
  | nil => exact absorb_nil n
  | cons m rest ih =>
    show m.absorb (mergeAnds (rest ++ [n])) = push (m.absorb (mergeAnds rest)) n
    rw [ih, absorb_push]

/-- Merging from the beginning, with the row merged so far, comes to the same as merging from the end. -/
theorem mergeAnds_eq_foldl (f : Forest) : mergeAnds f = f.foldl push [] := by
  induction f using List.reverseRecOn with
  | nil => rfl
  | append_singleton f n ih => rw [mergeAnds_concat, List.foldl_append, ih]; rfl

/-- **A merged row is made of the runs of the row.** Each longest run of AND groups has become one AND
group, with the name of the first and the children of all, and every condition and OR group stands as it
was, in its order. So the leaves are the same, no two AND groups are neighbours, and to merge again changes
nothing. It is the same to go through the row from its beginning and put each node after the last one of
what there is, or into it. -/
theorem mergeAnds_fuses (f : Forest) :
    (runs f).flatten = f ∧ List.Forall₂ Fuses (runs f) (mergeAnds f) ∧
      Apart (mergeAnds f) ∧ leaves (mergeAnds f) = leaves f ∧
      (mergeAnds f).filter (!·.isAnd) = f.filter (!·.isAnd) ∧
      mergeAnds (mergeAnds f) = mergeAnds f ∧ mergeAnds f = f.foldl push [] :=
  ⟨List.flatten_splitBy _ f, runs_fuse f, mergeAnds_apart f, leaves_mergeAnds f, filter_mergeAnds f,
    mergeAnds_eq_self (mergeAnds_apart f), mergeAnds_eq_foldl f⟩

/-- A run of two, a condition and a run of one. The groups inside the first are not merged in turn. -/
example :
    let group (id : String) (children : Forest) : Node := .group ⟨⟨id⟩, .and, children⟩
    let term : Node := .condition { id := ⟨"t"⟩ }
    mergeAnds [group "a" [group "b" []], group "c" [group "d" []], term, group "e" []] =
      [group "a" [group "b" [], group "d" []], term, group "e" []] := by decide

end Forest

end FilterTree
