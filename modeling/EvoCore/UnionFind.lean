import Mathlib

namespace EvoCore.UnionFind

-- Parent pointers in a list. find halves the path that it walks; unite hangs one root below the other.
def findFrom : Nat → List Nat → Nat → List Nat × Nat
  | 0,parents,x => (parents,x)
  | fuel+1,parents,x =>
    match parents[x]? with
    | none => (parents,x)
    | some p =>
      if p = x then (parents,x)
      else
        let up := (parents[p]?).getD p
        findFrom fuel (parents.set x up) up

-- No path is longer than the list.
def find (parents : List Nat) (x : Nat) : List Nat × Nat := findFrom parents.length parents x

def unite (parents : List Nat) (pair : Nat × Nat) : List Nat :=
  let (first,a) := find parents pair.1
  let (second,b) := find first pair.2
  if a = b then second else second.set a b

-- find of one index after the other, each on what the ones before it have left.
def roots (parents : List Nat) : List Nat → List Nat
  | [] => []
  | i::rest => (find parents i).2::roots (find parents i).1 rest

def size (parents : List Nat) (root : Nat → Nat) (r : Nat) : Nat := (List.range parents.length).countP fun i => root i == r

-- Every path climbs to the root of its tree; a height above it is less than the size of the tree.
structure Forest (parents : List Nat) (root height : Nat → Nat) : Prop where
  inside : ∀ i,i < parents.length → root i < parents.length ∧ parents[root i]? = some (root i)
  along : ∀ i p,parents[i]? = some p → p < parents.length ∧ root p = root i
  itself : ∀ i,parents[i]? = some i → root i = i ∧ height i = 0
  climb : ∀ i p,parents[i]? = some p → p ≠ i → height p < height i
  low : ∀ i,i < parents.length → height i < size parents root (root i)

-- The least equivalence that joins the pairs.
def Joined (pairs : List (Nat × Nat)) : Nat → Nat → Prop := Relation.EqvGen fun a b => (a,b) ∈ pairs

variable {parents : List Nat} {root height : Nat → Nat} {x y i j fuel : Nat} {pairs : List (Nat × Nat)} {pair : Nat × Nat}

theorem Forest.set {up : Nat} (forest : Forest parents root height) (above : up < parents.length) (same : root up = root x)
    (lower : height up < height x) (notRoot : parents[x]? ≠ some x) : Forest (parents.set x up) root height := by
  have moved : ∀ i p,(parents.set x up)[i]? = some p → i = x ∧ p = up ∨ i ≠ x ∧ parents[i]? = some p := by
    intro i p there
    rw [List.getElem?_set] at there
    split at there
    next equal =>
      split at there
      · exact .inl ⟨equal.symm,(Option.some.inj there).symm⟩
      · cases there
    next other => exact .inr ⟨Ne.symm other,there⟩
  constructor
  case inside =>
    intro i within
    rw [List.length_set] at within ⊢
    obtain ⟨bound,fixed⟩ := forest.inside i within
    have other : x ≠ root i := fun equal => notRoot (equal ▸ fixed)
    exact ⟨bound,by rw [List.getElem?_set_ne other,fixed]⟩
  case along =>
    intro i p there
    rw [List.length_set]
    rcases moved i p there with ⟨rfl,rfl⟩ | ⟨_,before⟩
    · exact ⟨above,same⟩
    · exact forest.along i p before
  case itself =>
    intro i there
    rcases moved i i there with ⟨rfl,rfl⟩ | ⟨_,before⟩
    · exact absurd lower (Nat.lt_irrefl _)
    · exact forest.itself i before
  case climb =>
    intro i p there other
    rcases moved i p there with ⟨rfl,rfl⟩ | ⟨_,before⟩
    · exact lower
    · exact forest.climb i p before other
  case low =>
    intro i within
    rw [List.length_set] at within
    simpa [size] using forest.low i within

theorem find_spec (forest : Forest parents root height) (within : x < parents.length) (enough : height x ≤ fuel) :
    (findFrom fuel parents x).2 = root x ∧ Forest (findFrom fuel parents x).1 root height ∧
      (findFrom fuel parents x).1.length = parents.length := by
  induction fuel generalizing parents x with
  | zero =>
    obtain ⟨p,there⟩ : ∃ p,parents[x]? = some p := ⟨_,List.getElem?_eq_getElem within⟩
    have ended : p = x := by
      by_contra other
      have climbs := forest.climb x p there other
      omega
    exact ⟨(forest.itself x (ended ▸ there)).1.symm,forest,rfl⟩
  | succ fuel ih =>
    obtain ⟨p,there⟩ : ∃ p,parents[x]? = some p := ⟨_,List.getElem?_eq_getElem within⟩
    simp only [findFrom,there]
    split
    next ended => exact ⟨(forest.itself x (ended ▸ there)).1.symm,forest,rfl⟩
    next other =>
      obtain ⟨bound,same⟩ := forest.along x p there
      obtain ⟨g,next⟩ : ∃ g,parents[p]? = some g := ⟨_,List.getElem?_eq_getElem bound⟩
      have climbs := forest.climb x p there other
      obtain ⟨above,sameAgain⟩ := forest.along p g next
      have lower : height g < height x := by
        by_cases stay : g = p
        · rw [stay]
          exact climbs
        · exact Nat.lt_trans (forest.climb p g next stay) climbs
      have notRoot : parents[x]? ≠ some x := by
        rw [there]
        exact fun equal => other (Option.some.inj equal)
      simp only [next,Option.getD_some]
      have halved := forest.set above (sameAgain.trans same) lower notRoot
      have rest := ih halved (x := g) (by rw [List.length_set]; exact above) (by omega)
      rw [List.length_set] at rest
      exact ⟨rest.1.trans (sameAgain.trans same),rest.2⟩

theorem size_le (r : Nat) : size parents root r ≤ parents.length := by
  have bound := List.countP_le_length (p := fun i => root i == r) (l := List.range parents.length)
  rwa [List.length_range] at bound

theorem find_root (forest : Forest parents root height) (within : x < parents.length) :
    (find parents x).2 = root x ∧ Forest (find parents x).1 root height ∧ (find parents x).1.length = parents.length := by
  refine find_spec forest within ?_
  have low := forest.low x within
  have bound := @size_le parents root (root x)
  omega

def merged (root : Nat → Nat) (r r' : Nat) (i : Nat) : Nat := if root i = r then r' else root i

def lifted (root height : Nat → Nat) (r : Nat) (i : Nat) : Nat := if root i = r then height i+1 else height i

theorem countP_two {α : Type} {p q both : α → Bool} (apart : ∀ a,p a = true → q a = false) (left : ∀ a,p a = true → both a = true)
    (right : ∀ a,q a = true → both a = true) (items : List α) : items.countP p + items.countP q ≤ items.countP both := by
  induction items with
  | nil => simp
  | cons a rest ih =>
    simp only [List.countP_cons]
    cases inP : p a with
    | true => simp only [apart a inP,left a inP,if_true]; simp; omega
    | false =>
      cases inQ : q a with
      | true => simp only [right a inQ,if_true]; simp; omega
      | false => simp; omega

theorem Forest.hang {r r' : Nat} (forest : Forest parents root height) (below : parents[r]? = some r) (above : parents[r']? = some r')
    (apart : r ≠ r') : Forest (parents.set r r') (merged root r r') (lifted root height r) := by
  obtain ⟨rItself,_⟩ := forest.itself r below
  obtain ⟨r'Itself,r'Flat⟩ := forest.itself r' above
  have rBound := (List.getElem?_eq_some_iff.mp below).1
  have r'Bound := (List.getElem?_eq_some_iff.mp above).1
  have moved : ∀ i p,(parents.set r r')[i]? = some p → i = r ∧ p = r' ∨ i ≠ r ∧ parents[i]? = some p := by
    intro i p there
    rw [List.getElem?_set] at there
    split at there
    next equal => exact .inl ⟨equal.symm,(Option.some.inj there).symm⟩
    next other => exact .inr ⟨Ne.symm other,there⟩
  constructor
  case inside =>
    intro i within
    rw [List.length_set] at within ⊢
    simp only [merged]
    split
    next => exact ⟨r'Bound,by rw [List.getElem?_set_ne apart,above]⟩
    next other =>
      obtain ⟨bound,fixed⟩ := forest.inside i within
      exact ⟨bound,by rw [List.getElem?_set_ne (Ne.symm other),fixed]⟩
  case along =>
    intro i p there
    rw [List.length_set]
    rcases moved i p there with ⟨rfl,rfl⟩ | ⟨_,before⟩
    · refine ⟨r'Bound,?_⟩
      simp only [merged,rItself,r'Itself,if_true,if_neg (Ne.symm apart)]
    · obtain ⟨bound,same⟩ := forest.along i p before
      exact ⟨bound,by simp only [merged,same]⟩
  case itself =>
    intro i there
    rcases moved i i there with ⟨rfl,equal⟩ | ⟨other,before⟩
    · exact absurd equal apart
    · obtain ⟨same,flat⟩ := forest.itself i before
      simp only [merged,lifted,same,if_neg other,flat,and_self]
  case climb =>
    intro i p there other
    rcases moved i p there with ⟨rfl,rfl⟩ | ⟨_,before⟩
    · simp only [lifted,rItself,r'Itself,if_neg (Ne.symm apart),if_true,r'Flat]
      omega
    · have climbs := forest.climb i p before other
      have same := (forest.along i p before).2
      simp only [lifted,same]
      split <;> omega
  case low =>
    intro i within
    rw [List.length_set] at within
    have low := forest.low i within
    have nonempty : 0 < size parents root r' := by
      rw [size,List.countP_pos_iff]
      exact ⟨r',List.mem_range.mpr r'Bound,by simp [r'Itself]⟩
    have both : size parents root r + size parents root r' ≤ size parents (merged root r r') r' := by
      apply countP_two
      · intro j inR
        rw [beq_iff_eq.mp inR]
        exact beq_false_of_ne apart
      · intro j inR
        simp [merged,beq_iff_eq.mp inR]
      · intro j inR'
        simp [merged,beq_iff_eq.mp inR',Ne.symm apart]
    have sameSize : ∀ j,size (parents.set r r') (merged root r r') j = size parents (merged root r r') j := by
      intro j
      simp [size]
    rw [sameSize]
    simp only [merged,lifted]
    split
    next inR =>
      rw [inR] at low
      exact Nat.lt_of_lt_of_le (by omega) both
    next notR =>
      by_cases inR' : root i = r'
      · rw [inR'] at low ⊢
        exact Nat.lt_of_lt_of_le (by omega) both
      · refine Nat.lt_of_lt_of_le low (List.countP_mono_left fun j _ inClass => ?_)
        have same : root j = root i := beq_iff_eq.mp inClass
        simp [merged,same,notR]

theorem merged_same {r r' : Nat} : merged root r r' i = merged root r r' j ↔
    root i = root j ∨ root i = r ∧ r' = root j ∨ root i = r' ∧ r = root j := by
  simp only [merged]
  split <;> split <;> grind

theorem unite_spec (forest : Forest parents root height) (first : x < parents.length) (second : y < parents.length) :
    ∃ root' height',Forest (unite parents (x,y)) root' height' ∧ (unite parents (x,y)).length = parents.length ∧
      ∀ i j,root' i = root' j ↔ root i = root j ∨ root i = root x ∧ root y = root j ∨ root i = root y ∧ root x = root j := by
  obtain ⟨found,kept,same⟩ := find_root forest first
  obtain ⟨foundAgain,keptAgain,sameAgain⟩ := find_root kept (same ▸ second)
  have length := sameAgain.trans same
  obtain ⟨xBound,xFixed⟩ := keptAgain.inside x (by rw [length]; exact first)
  obtain ⟨yBound,yFixed⟩ := keptAgain.inside y (by rw [length]; exact second)
  simp only [unite,found,foundAgain]
  split
  next equal =>
    refine ⟨root,height,keptAgain,length,fun i j => ⟨.inl,?_⟩⟩
    rintro (held | ⟨one,two⟩ | ⟨one,two⟩)
    · exact held
    · rw [one,equal,two]
    · rw [one,← equal,two]
  next apart =>
    exact ⟨_,_,keptAgain.hang xFixed yFixed apart,by rw [List.length_set,length],fun i j => merged_same⟩

theorem joined_more {more : List (Nat × Nat)} (sub : pairs ⊆ more) (joined : Joined pairs i j) : Joined more i j :=
  Relation.EqvGen.mono (fun _ _ member => sub member) i j joined

theorem joined_snoc : Joined (pairs ++ [(x,y)]) i j ↔ Joined pairs i j ∨ Joined pairs i x ∧ Joined pairs y j ∨ Joined pairs i y ∧ Joined pairs x j := by
  constructor
  · intro joined
    induction joined with
    | rel a b member =>
      rcases List.mem_append.mp member with before | last
      · exact .inl (.rel _ _ before)
      · cases List.mem_singleton.mp last
        exact .inr (.inl ⟨.refl _,.refl _⟩)
    | refl a => exact .inl (.refl _)
    | symm a b _ ih =>
      rcases ih with one | ⟨one,two⟩ | ⟨one,two⟩
      · exact .inl (.symm _ _ one)
      · exact .inr (.inr ⟨.symm _ _ two,.symm _ _ one⟩)
      · exact .inr (.inl ⟨.symm _ _ two,.symm _ _ one⟩)
    | trans a b c _ _ first second =>
      rcases first with one | ⟨one,two⟩ | ⟨one,two⟩
      · rcases second with three | ⟨three,four⟩ | ⟨three,four⟩
        · exact .inl (.trans _ _ _ one three)
        · exact .inr (.inl ⟨.trans _ _ _ one three,four⟩)
        · exact .inr (.inr ⟨.trans _ _ _ one three,four⟩)
      · rcases second with three | ⟨_,four⟩ | ⟨_,four⟩
        · exact .inr (.inl ⟨one,.trans _ _ _ two three⟩)
        · exact .inr (.inl ⟨one,four⟩)
        · exact .inl (.trans _ _ _ one four)
      · rcases second with three | ⟨_,four⟩ | ⟨_,four⟩
        · exact .inr (.inr ⟨one,.trans _ _ _ two three⟩)
        · exact .inl (.trans _ _ _ one four)
        · exact .inr (.inr ⟨one,four⟩)
  · have sub : pairs ⊆ pairs ++ [(x,y)] := List.subset_append_left _ _
    have bridge : Joined (pairs ++ [(x,y)]) x y := .rel _ _ (by simp)
    rintro (one | ⟨one,two⟩ | ⟨one,two⟩)
    · exact joined_more sub one
    · exact .trans _ _ _ (joined_more sub one) (.trans _ _ _ bridge (joined_more sub two))
    · exact .trans _ _ _ (joined_more sub one) (.trans _ _ _ (.symm _ _ bridge) (joined_more sub two))

theorem joined_nil : Joined [] i j ↔ i = j := by
  constructor
  · intro joined
    induction joined with
    | rel _ _ member => cases member
    | refl => rfl
    | symm _ _ _ ih => exact ih.symm
    | trans _ _ _ _ _ one two => exact one.trans two
  · rintro rfl
    exact .refl _

-- From singletons, pair after pair: two indices have one root exactly when the pairs join them.
theorem united_spec (n : Nat) (pairs : List (Nat × Nat)) (within : ∀ pair ∈ pairs,pair.1 < n ∧ pair.2 < n) :
    ∃ root height,Forest (pairs.foldl unite (List.range n)) root height ∧ (pairs.foldl unite (List.range n)).length = n ∧
      ∀ i j,root i = root j ↔ Joined pairs i j := by
  induction pairs using List.reverseRecOn with
  | nil =>
    refine ⟨id,fun _ => 0,?_,List.length_range,fun i j => joined_nil.symm⟩
    have fixed : ∀ i p,(List.range n)[i]? = some p → p = i ∧ i < n := by
      intro i p there
      obtain ⟨bound,same⟩ := List.getElem?_eq_some_iff.mp there
      simp at bound same
      exact ⟨same.symm,bound⟩
    constructor
    case inside => intro i bound; simp at bound; simp [bound]
    case along => intro i p there; simp [(fixed i p there).1,(fixed i p there).2]
    case itself => intro i there; simp
    case climb => intro i p there other; exact absurd (fixed i p there).1 other
    case low =>
      intro i bound
      rw [size,List.countP_pos_iff]
      exact ⟨i,List.mem_range.mpr bound,by simp⟩
  | append_singleton before pair ih =>
    obtain ⟨root,height,forest,length,same⟩ := ih fun p member => within p (List.mem_append_left _ member)
    obtain ⟨first,second⟩ := within pair (by simp)
    obtain ⟨root',height',forest',length',same'⟩ := unite_spec forest (length.symm ▸ first) (length.symm ▸ second)
    rw [List.foldl_append,List.foldl_cons,List.foldl_nil]
    refine ⟨root',height',forest',length'.trans length,fun i j => ?_⟩
    rw [same',joined_snoc,same,same,same,same,same]

theorem roots_spec (forest : Forest parents root height) {indices : List Nat} (within : ∀ i ∈ indices,i < parents.length) :
    roots parents indices = indices.map root := by
  induction indices generalizing parents with
  | nil => rfl
  | cons i rest ih =>
    obtain ⟨found,kept,same⟩ := find_root forest (within i List.mem_cons_self)
    rw [roots,List.map_cons,found,ih kept]
    intro j member
    rw [same]
    exact within j (List.mem_cons_of_mem _ member)

end EvoCore.UnionFind
