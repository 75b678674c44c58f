/-!
# Sets of names

A finite set of names, kept as a list in strictly ascending order. Two sets with the same members
are equal.

* `mem_insert`: the members after an insertion.
* `ext`: a set is determined by its members.
-/

namespace Regression

structure NameSet where
  toList : List String
  ascending : toList.Pairwise (· < ·) := by simp
  deriving DecidableEq, Repr

namespace NameSet

def empty : NameSet := { toList := [] }

instance : Inhabited NameSet := ⟨empty⟩

instance : Membership String NameSet := ⟨fun s name => name ∈ s.toList⟩

instance (name : String) (s : NameSet) : Decidable (name ∈ s) :=
  inferInstanceAs (Decidable (name ∈ s.toList))

/-- Insert a name into an ascending list. -/
def insertList (name : String) : List String → List String
  | [] => [name]
  | first :: rest =>
    if name < first then name :: first :: rest
    else if first < name then first :: insertList name rest
    else first :: rest

theorem eq_of_not_lt {a b : String} (hab : ¬ a < b) (hba : ¬ b < a) : a = b :=
  String.le_antisymm hba hab

theorem mem_insertList {x name : String} :
    ∀ {names : List String}, x ∈ insertList name names ↔ x = name ∨ x ∈ names
  | [] => by simp [insertList]
  | first :: rest => by
    simp only [insertList]
    split
    · simp
    · split
      · simp only [List.mem_cons, @mem_insertList x name rest]
        grind
      · next h₁ h₂ =>
        have := eq_of_not_lt h₁ h₂
        simp only [List.mem_cons]
        grind

theorem pairwise_insertList {name : String} :
    ∀ {names : List String}, names.Pairwise (· < ·) → (insertList name names).Pairwise (· < ·)
  | [], _ => by simp [insertList]
  | first :: rest, h => by
    obtain ⟨hfirst, hrest⟩ := List.pairwise_cons.1 h
    simp only [insertList]
    split
    · next hlt =>
      refine List.pairwise_cons.2 ⟨fun x hx => ?_, h⟩
      rcases List.mem_cons.1 hx with rfl | hx
      · exact hlt
      · exact String.lt_trans hlt (hfirst x hx)
    · split
      · next hlt =>
        refine List.pairwise_cons.2 ⟨fun x hx => ?_, pairwise_insertList hrest⟩
        rcases mem_insertList.1 hx with rfl | hx
        · exact hlt
        · exact hfirst x hx
      · exact h

def insert (name : String) (s : NameSet) : NameSet :=
  { toList := insertList name s.toList
    ascending := pairwise_insertList s.ascending }

/-- The set of the members of a list. -/
def ofList (names : List String) : NameSet := names.foldl (fun s name => s.insert name) empty

def union (s t : NameSet) : NameSet := t.toList.foldl (fun s name => s.insert name) s

def isEmpty (s : NameSet) : Bool := s.toList.isEmpty

theorem mem_insert {x name : String} {s : NameSet} : x ∈ s.insert name ↔ x = name ∨ x ∈ s :=
  mem_insertList

theorem mem_foldl_insert {x : String} :
    ∀ {names : List String} {s : NameSet},
      x ∈ names.foldl (fun s name => s.insert name) s ↔ x ∈ names ∨ x ∈ s
  | [], s => by simp
  | name :: names, s => by
    simp only [List.foldl_cons, mem_foldl_insert, mem_insert, List.mem_cons]
    grind

theorem mem_ofList {x : String} {names : List String} : x ∈ ofList names ↔ x ∈ names := by
  have : x ∉ empty := List.not_mem_nil
  simp [ofList, mem_foldl_insert, this]

theorem mem_union {x : String} {s t : NameSet} : x ∈ s.union t ↔ x ∈ s ∨ x ∈ t := by
  simp only [union, mem_foldl_insert]
  exact Or.comm

/-- Two ascending lists with the same members are equal. -/
theorem eq_of_mem_iff : ∀ {xs ys : List String}, xs.Pairwise (· < ·) → ys.Pairwise (· < ·) →
    (∀ x, x ∈ xs ↔ x ∈ ys) → xs = ys
  | [], [], _, _, _ => rfl
  | [], y :: _, _, _, h => absurd ((h y).2 (List.mem_cons_self ..)) List.not_mem_nil
  | x :: _, [], _, _, h => absurd ((h x).1 (List.mem_cons_self ..)) List.not_mem_nil
  | x :: xs, y :: ys, hs, ht, h => by
    obtain ⟨hx, hxs⟩ := List.pairwise_cons.1 hs
    obtain ⟨hy, hys⟩ := List.pairwise_cons.1 ht
    have hxy : x = y := by
      rcases List.mem_cons.1 ((h x).1 (List.mem_cons_self ..)) with h₁ | h₁
      · exact h₁
      · rcases List.mem_cons.1 ((h y).2 (List.mem_cons_self ..)) with h₂ | h₂
        · exact h₂.symm
        · exact absurd (String.lt_trans (hy x h₁) (hx y h₂)) (String.lt_irrefl y)
    subst hxy
    have hrest : xs = ys := eq_of_mem_iff hxs hys fun z => by
      constructor
      · intro hz
        rcases List.mem_cons.1 ((h z).1 (List.mem_cons_of_mem _ hz)) with rfl | hz'
        · exact absurd (hx z hz) (String.lt_irrefl z)
        · exact hz'
      · intro hz
        rcases List.mem_cons.1 ((h z).2 (List.mem_cons_of_mem _ hz)) with rfl | hz'
        · exact absurd (hy z hz) (String.lt_irrefl z)
        · exact hz'
    rw [hrest]

theorem ext {s t : NameSet} (h : ∀ x, x ∈ s ↔ x ∈ t) : s = t := by
  have : s.toList = t.toList := eq_of_mem_iff s.ascending t.ascending h
  cases s
  cases t
  simpa using this

end NameSet

end Regression
