import Mathlib.Data.List.Perm.Subperm
import Mathlib.Logic.Relation

/-!
# Orders along dependencies

A list whose elements come after everything they depend on, written latest
first, and the graphs that have one: those without cycles.  A depth-first search
builds such a list, and the path it is on repeats no element as long as there is
no cycle, which bounds its depth.

## Main definitions

* `DependencyOrder.Closed dep as` — the dependencies of every element of `as` come after it.
* `DependencyOrder.Acyclic dep` — no element depends on itself, through any number of others.

## Main results

* `acyclic_of_closed` — a graph whose elements are in a closed list has no cycle.
* `Closed.mem_before` — read forwards, dependencies come first.
* `length_lt_of_path` — a path of an acyclic search is shorter than the graph.
-/

namespace DependencyOrder

variable {α : Type*} {dep : α → α → Prop}

/-- A list, latest first, in which every element comes after its dependencies: all that an element
depends on stands behind it. -/
def Closed (dep : α → α → Prop) : List α → Prop
  | [] => True
  | a :: as => (∀ b, dep a b → b ∈ as) ∧ Closed dep as

/-- No element depends on itself, directly or through any number of others. A graph without cycles
is one that has such an order. -/
def Acyclic (dep : α → α → Prop) : Prop := ∀ a, ¬ Relation.TransGen dep a a

/-- The dependencies of a member of a closed list are members. -/
theorem Closed.mem {a b : α} : ∀ {as : List α}, Closed dep as → a ∈ as → dep a b → b ∈ as := by
  intro as
  induction as with
  | nil => intro _ ha; simp at ha
  | cons c as ih =>
    rintro ⟨hc, has⟩ ha hab
    rcases List.mem_cons.mp ha with rfl | ha
    · exact List.mem_cons_of_mem _ (hc b hab)
    · exact List.mem_cons_of_mem _ (ih has ha hab)

/-- A list closed under a relation is closed under any smaller one. -/
theorem Closed.mono {dep' : α → α → Prop} (himp : ∀ a b, dep' a b → dep a b) : ∀ {as : List α},
    Closed dep as → Closed dep' as := by
  intro as
  induction as with
  | nil => intro _; trivial
  | cons a as ih =>
    rintro ⟨ha, has⟩
    exact ⟨fun b hab => ha b (himp a b hab), ih has⟩

/-- From a member of a closed list, dependencies cannot be followed for ever. -/
theorem Closed.acc : ∀ {as : List α} {a : α}, Closed dep as → a ∈ as →
    Acc (fun b a => dep a b) a := by
  intro as
  induction as with
  | nil => intro a _ ha; simp at ha
  | cons c as ih =>
    rintro a ⟨hc, has⟩ ha
    rcases List.mem_cons.mp ha with rfl | ha
    · exact Acc.intro _ fun b hab => ih has (hc b hab)
    · exact ih has ha

theorem not_transGen_of_acc {a : α} (h : Acc (fun b a => dep a b) a) :
    ¬ Relation.TransGen dep a a := by
  induction h with
  | intro a _ ih =>
    intro hcycle
    -- a cycle through `a` is one through the first element after it
    obtain ⟨b, hab, hba⟩ := Relation.TransGen.head'_iff.mp hcycle
    exact ih b hab (Relation.TransGen.tail' hba hab)

/-- A smaller relation has no more cycles. -/
theorem Acyclic.mono {dep' : α → α → Prop} (h : Acyclic dep) (himp : ∀ a b, dep' a b → dep a b) :
    Acyclic dep' := by
  intro a hcycle
  exact h a (Relation.TransGen.mono himp a a hcycle)

/-- **A graph whose elements are in a closed list has no cycle.** -/
theorem acyclic_of_closed {as : List α} (h : Closed dep as) (hmem : ∀ a b, dep a b → a ∈ as) :
    Acyclic dep := by
  intro a hcycle
  obtain ⟨b, hab, -⟩ := Relation.TransGen.head'_iff.mp hcycle
  exact not_transGen_of_acc (h.acc (hmem a b hab)) hcycle

/-- **Read forwards, dependencies come first**: what the element at some place depends on is among
the elements before it. -/
theorem Closed.mem_before {a b : α} {before after : List α}
    (h : Closed dep (before ++ a :: after).reverse) (hab : dep a b) : b ∈ before := by
  rw [List.reverse_append, List.reverse_cons, List.append_assoc] at h
  generalize after.reverse = xs at h
  induction xs with
  | nil => exact List.mem_reverse.mp (h.1 b hab)
  | cons x xs ih => exact ih h.2

/-- A path that leads to an element outside it visits fewer elements than there are. -/
theorem length_lt_of_path {path elems : List α} {a : α} (hnodup : path.Nodup)
    (hsub : path ⊆ elems) (ha : a ∈ elems) (hnew : a ∉ path) : path.length < elems.length := by
  have hcons : (a :: path).Nodup := List.nodup_cons.mpr ⟨hnew, hnodup⟩
  have hle := (List.subperm_of_subset hcons (List.cons_subset.mpr ⟨ha, hsub⟩)).length_le
  rw [List.length_cons] at hle
  omega

end DependencyOrder
