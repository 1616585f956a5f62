import EvoCore.BreadthFirst

namespace EvoCore.DepthFirst
open BreadthFirst (Reaches Within)

-- A search by depth with one set of visited nodes, a budget of hops that each branch spends for itself,
-- and a cap on the visits. It tells what it expands, in order, with the budget that was left there.
variable {α : Type}

structure Visits (α : Type) where
  visited : Finset α
  truncated : Bool

def Visits.empty : Visits α := ⟨∅,false⟩

section
variable [DecidableEq α] (nexts : α → List α) (known : α → Bool) (cap : Nat)

def Visits.enter (v : Visits α) (x : α) : Visits α := {v with visited := insert x v.visited}

def offer (visit : α → Visits α → List (α × Nat) × Visits α) (n : Nat) (acc : List (α × Nat) × Visits α) (y : α) :
    List (α × Nat) × Visits α :=
  if n = 0 ∨ known y = false ∨ y ∈ acc.2.visited then acc
  else if cap ≤ acc.2.visited.card then (acc.1,{acc.2 with truncated := true})
  else (acc.1 ++ (visit y acc.2).1,(visit y acc.2).2)

def visit : Nat → α → Visits α → List (α × Nat) × Visits α
  | 0,x,v => ([(x,0)],v.enter x)
  | n+1,x,v =>
    let below := (nexts x).foldl (offer known cap (visit n) n) ([],v.enter x)
    ((x,n+1)::below.1,below.2)

end

section
variable (nexts : α → List α) (known : α → Bool) (cap : Nat)

-- Down the tree of the search: one hop, one less to go.
inductive Route (found : List (α × Nat)) (start : α × Nat) : α × Nat → Prop
  | here : start ∈ found → Route found start start
  | on {w y : α} {m : Nat} : Route found start (w,m+1) → y ∈ nexts w → (y,m) ∈ found → Route found start (y,m)

-- A known node that a node with hops to spare leads to, and that is not visited.
def Bare (ys : List α) (n : Nat) (visited : Finset α) (found : List (α × Nat)) : Prop :=
  (n ≠ 0 ∧ ∃ y ∈ ys,known y = true ∧ y ∉ visited) ∨ ∃ e ∈ found,2 ≤ e.2 ∧ ∃ y ∈ nexts e.1,known y = true ∧ y ∉ visited

-- What comes of offering ys with n hops to go.
structure Explored (ys : List α) (n : Nat) (v after : Visits α) (found : List (α × Nat)) : Prop where
  once : (found.map Prod.fst).Nodup
  fresh : ∀ e ∈ found,e.1 ∉ v.visited ∧ known e.1 = true
  grown : ∀ x,x ∈ after.visited ↔ x ∈ v.visited ∨ x ∈ found.map Prod.fst
  cut : after.truncated = true ↔ v.truncated = true ∨ Bare nexts known ys n after.visited found
  full : Bare nexts known ys n after.visited found → cap ≤ after.visited.card
  routes : ∀ e ∈ found,∃ y ∈ ys,Route nexts found (y,n) e
  alive : n ≠ 0 → ∀ e ∈ found,e.2 ≠ 0

end

variable {nexts : α → List α} {known : α → Bool} {cap n m : Nat} {v after last : Visits α} {found more : List (α × Nat)}
  {ys zs : List α} {x y : α} {e start : α × Nat}

theorem Route.mono (route : Route nexts found start e) (sub : found ⊆ more) : Route nexts more start e := by
  induction route with
  | here there => exact .here (sub there)
  | on _ next there ih => exact .on ih next (sub there)

theorem Route.under (route : Route nexts found (y,n) e) (hop : y ∈ nexts x) (above : (x,n+1) ∈ found) : Route nexts found (x,n+1) e := by
  induction route with
  | here there => exact .on (.here above) hop there
  | on _ next there ih => exact .on ih next there

theorem bare_shrinks {visited wider : Finset α} (sub : visited ⊆ wider) (bare : Bare nexts known ys n wider found) :
    Bare nexts known ys n visited found := by
  rcases bare with ⟨some_,y,offered,known_,out⟩ | ⟨e,there,spare,y,next,known_,out⟩
  · exact .inl ⟨some_,y,offered,known_,fun inside => out (sub inside)⟩
  · exact .inr ⟨e,there,spare,y,next,known_,fun inside => out (sub inside)⟩

theorem bare_append {visited : Finset α} : Bare nexts known (ys ++ zs) n visited (found ++ more) ↔
    Bare nexts known ys n visited found ∨ Bare nexts known zs n visited more := by
  simp only [Bare,List.mem_append,or_and_right,exists_or,and_or_left]
  exact or_or_or_comm

theorem Explored.sub (explored : Explored nexts known cap ys n v after found) : v.visited ⊆ after.visited :=
  fun x inside => (explored.grown x).mpr (.inl inside)

theorem Explored.stuck (explored : Explored nexts known cap ys n v after found) (bounded : after.visited.card ≤ max v.visited.card cap)
    (full : cap ≤ v.visited.card) : after.visited = v.visited :=
  (Finset.eq_of_subset_of_card_le explored.sub (by omega)).symm

theorem Explored.append (one : Explored nexts known cap ys n v after found) (two : Explored nexts known cap zs n after last more)
    (bounded : last.visited.card ≤ max after.visited.card cap) : Explored nexts known cap (ys ++ zs) n v last (found ++ more) := by
  have still : Bare nexts known ys n after.visited found ↔ Bare nexts known ys n last.visited found := by
    constructor
    · intro bare
      rw [two.stuck bounded (one.full bare)]
      exact bare
    · exact bare_shrinks two.sub
  constructor
  case once =>
    rw [List.map_append,List.nodup_append]
    refine ⟨one.once,two.once,fun a inOne b inTwo same => ?_⟩
    obtain ⟨e,there,rfl⟩ := List.mem_map.mp inTwo
    exact (two.fresh e there).1 ((one.grown _).mpr (.inr (same ▸ inOne)))
  case fresh =>
    intro e there
    rcases List.mem_append.mp there with first | second
    · exact one.fresh e first
    · exact ⟨fun inside => (two.fresh e second).1 (one.sub inside),(two.fresh e second).2⟩
  case grown =>
    intro x
    rw [two.grown,one.grown,List.map_append,List.mem_append,or_assoc]
  case cut => rw [two.cut,one.cut,still,bare_append,or_assoc]
  case full =>
    intro bare
    rcases bare_append.mp bare with first | second
    · exact (one.full (still.mpr first)).trans (Finset.card_le_card two.sub)
    · exact two.full second
  case routes =>
    intro e there
    rcases List.mem_append.mp there with first | second
    · obtain ⟨y,offered,route⟩ := one.routes e first
      exact ⟨y,List.mem_append_left _ offered,route.mono (List.subset_append_left _ _)⟩
    · obtain ⟨y,offered,route⟩ := two.routes e second
      exact ⟨y,List.mem_append_right _ offered,route.mono (List.subset_append_right _ _)⟩
  case alive =>
    intro some_ e there
    rcases List.mem_append.mp there with first | second
    · exact one.alive some_ e first
    · exact two.alive some_ e second

theorem explored_nothing (blank : ∀ y ∈ ys,n = 0 ∨ known y = false ∨ y ∈ v.visited) : Explored nexts known cap ys n v v [] := by
  have none_ : ¬ Bare nexts known ys n v.visited [] := by
    rintro (⟨some_,y,offered,known_,out⟩ | ⟨e,there,_⟩)
    · rcases blank y offered with zero | unknown | inside
      · exact some_ zero
      · exact Bool.noConfusion (unknown.symm.trans known_)
      · exact out inside
    · cases there
  constructor
  case once => exact List.nodup_nil
  case fresh => exact fun e there => absurd there List.not_mem_nil
  case grown => simp
  case cut => simp [none_]
  case full => exact fun bare => absurd bare none_
  case routes => exact fun e there => absurd there List.not_mem_nil
  case alive => exact fun _ e there => absurd there List.not_mem_nil

theorem explored_capped (some_ : n ≠ 0) (known_ : known y = true) (out : y ∉ v.visited) (full : cap ≤ v.visited.card) :
    Explored nexts known cap [y] n v {v with truncated := true} [] := by
  have bare : Bare nexts known [y] n v.visited [] := .inl ⟨some_,y,List.mem_singleton.mpr rfl,known_,out⟩
  constructor
  case once => exact List.nodup_nil
  case fresh => exact fun e there => absurd there List.not_mem_nil
  case grown => simp
  case cut => simp [bare]
  case full => exact fun _ => full
  case routes => exact fun e there => absurd there List.not_mem_nil
  case alive => exact fun _ e there => absurd there List.not_mem_nil

variable [DecidableEq α]

theorem Explored.enter (below : Explored nexts known cap (nexts y) n (v.enter y) after found) (dead : n = 0 → found = [])
    (known_ : known y = true) (out : y ∉ v.visited) : Explored nexts known cap [y] (n+1) v after ((y,n+1)::found) := by
  have entered : y ∈ after.visited := (below.grown y).mpr (.inl (Finset.mem_insert_self _ _))
  have same : Bare nexts known [y] (n+1) after.visited ((y,n+1)::found) ↔ Bare nexts known (nexts y) n after.visited found := by
    constructor
    · rintro (⟨_,z,offered,_,away⟩ | ⟨e,there,spare,z,next,known_,away⟩)
      · rw [List.mem_singleton.mp offered] at away
        exact absurd entered away
      · rcases List.mem_cons.mp there with rfl | later
        · exact .inl ⟨by dsimp only at spare; omega,z,next,known_,away⟩
        · exact .inr ⟨e,later,spare,z,next,known_,away⟩
    · rintro (⟨some_,z,next,known_,away⟩ | ⟨e,there,rest⟩)
      · exact .inr ⟨_,List.mem_cons_self,by dsimp only; omega,z,next,known_,away⟩
      · exact .inr ⟨e,List.mem_cons_of_mem _ there,rest⟩
  constructor
  case once =>
    refine List.nodup_cons.mpr ⟨fun again => ?_,below.once⟩
    obtain ⟨e,there,same⟩ := List.mem_map.mp again
    exact (below.fresh e there).1 (by rw [same]; exact Finset.mem_insert_self _ _)
  case fresh =>
    intro e there
    rcases List.mem_cons.mp there with rfl | later
    · exact ⟨out,known_⟩
    · exact ⟨fun inside => (below.fresh e later).1 (Finset.mem_insert_of_mem inside),(below.fresh e later).2⟩
  case grown =>
    intro x
    rw [below.grown,Visits.enter,Finset.mem_insert,List.map_cons,List.mem_cons]
    exact (or_congr_left or_comm).trans or_assoc
  case cut => rw [below.cut,same,Visits.enter]
  case full => exact fun bare => below.full (same.mp bare)
  case routes =>
    intro e there
    refine ⟨y,List.mem_singleton.mpr rfl,?_⟩
    rcases List.mem_cons.mp there with rfl | later
    · exact .here List.mem_cons_self
    · obtain ⟨z,next,route⟩ := below.routes e later
      exact (route.mono (List.subset_cons_self _ _)).under next List.mem_cons_self
  case alive =>
    intro _ e there
    rcases List.mem_cons.mp there with rfl | later
    · exact Nat.succ_ne_zero n
    · refine below.alive (fun zero => ?_) e later
      rw [dead zero] at later
      cases later

section Searching

variable (nexts known cap)

-- Everything that is offered with n hops to go, one after the other.
def offers (n : Nat) (ys : List α) (v : Visits α) : List (α × Nat) × Visits α := ys.foldl (offer known cap (visit nexts known cap n) n) ([],v)

end Searching

theorem offer_shift (f : α → Visits α → List (α × Nat) × Visits α) (before : List (α × Nat)) (v : Visits α) (y : α) :
    offer known cap f n (before,v) y = (before ++ (offer known cap f n ([],v) y).1,(offer known cap f n ([],v) y).2) := by
  unfold offer
  split
  · simp
  · split <;> simp

theorem foldl_shift (f : α → Visits α → List (α × Nat) × Visits α) (before : List (α × Nat)) (v : Visits α) (ys : List α) :
    ys.foldl (offer known cap f n) (before,v) =
      (before ++ (ys.foldl (offer known cap f n) ([],v)).1,(ys.foldl (offer known cap f n) ([],v)).2) := by
  induction ys generalizing before v with
  | nil => simp
  | cons y rest ih =>
    rw [List.foldl_cons,List.foldl_cons,offer_shift,ih]
    rw [ih (offer known cap f n ([],v) y).1,List.append_assoc]

theorem offers_cons : offers nexts known cap n (y::ys) v =
    ((offer known cap (visit nexts known cap n) n ([],v) y).1 ++
        (offers nexts known cap n ys (offer known cap (visit nexts known cap n) n ([],v) y).2).1,
      (offers nexts known cap n ys (offer known cap (visit nexts known cap n) n ([],v) y).2).2) := by
  rw [offers,List.foldl_cons]
  exact foldl_shift _ _ _ _

theorem offers_dead : offers nexts known cap 0 ys v = ([],v) := by
  induction ys with
  | nil => rfl
  | cons y rest ih =>
    have blank : offer known cap (visit nexts known cap 0) 0 ([],v) y = ([],v) := if_pos (.inl rfl)
    rw [offers_cons,blank,ih]
    rfl

-- One more than the cap is visited at most by the first step, which is not asked.
theorem visit_explored (known_ : known x = true) (out : x ∉ v.visited) :
    Explored nexts known cap [x] n v (visit nexts known cap n x v).2 (visit nexts known cap n x v).1 ∧
      (visit nexts known cap n x v).2.visited.card ≤ max (v.visited.card+1) cap := by
  induction n generalizing x v with
  | zero =>
    have entered : (v.enter x).visited.card = v.visited.card+1 := Finset.card_insert_of_notMem out
    refine ⟨?_,by rw [visit,entered]; exact le_max_left _ _⟩
    have none_ : ¬ Bare nexts known [x] 0 (v.enter x).visited [(x,0)] := by
      rintro (⟨some_,_⟩ | ⟨e,there,spare,_⟩)
      · exact some_ rfl
      · rw [List.mem_singleton.mp there] at spare
        exact absurd spare (by simp)
    constructor
    case once => exact List.nodup_singleton _
    case fresh =>
      intro e there
      rw [List.mem_singleton.mp there]
      exact ⟨out,known_⟩
    case grown =>
      intro y
      rw [visit,Visits.enter,Finset.mem_insert,List.map_singleton,List.mem_singleton,or_comm]
    case cut =>
      rw [visit]
      simp only [none_,or_false]
      rfl
    case full => exact fun bare => absurd bare none_
    case routes =>
      intro e there
      rw [List.mem_singleton.mp there]
      exact ⟨x,List.mem_singleton.mpr rfl,.here List.mem_cons_self⟩
    case alive => exact fun some_ => absurd rfl some_
  | succ n ih =>
    have group : ∀ ys (v : Visits α),Explored nexts known cap ys n v (offers nexts known cap n ys v).2 (offers nexts known cap n ys v).1 ∧
        (offers nexts known cap n ys v).2.visited.card ≤ max v.visited.card cap := by
      intro ys
      induction ys with
      | nil => exact fun v => ⟨explored_nothing (by simp),le_max_left _ _⟩
      | cons y rest more =>
        intro v
        have one : Explored nexts known cap [y] n v (offer known cap (visit nexts known cap n) n ([],v) y).2
            (offer known cap (visit nexts known cap n) n ([],v) y).1 ∧
            (offer known cap (visit nexts known cap n) n ([],v) y).2.visited.card ≤ max v.visited.card cap := by
          unfold offer
          split
          next blank =>
            refine ⟨explored_nothing fun z alone => ?_,le_max_left _ _⟩
            rw [List.mem_singleton.mp alone]
            exact blank
          next open_ =>
            simp only [not_or,Bool.not_eq_false] at open_
            split
            next full => exact ⟨explored_capped open_.1 open_.2.1 open_.2.2 full,le_max_left _ _⟩
            next room =>
              obtain ⟨explored,bounded⟩ := ih (v := v) open_.2.1 open_.2.2
              refine ⟨explored,bounded.trans ?_⟩
              dsimp only at room
              omega
        obtain ⟨two,bounded⟩ := more (offer known cap (visit nexts known cap n) n ([],v) y).2
        rw [offers_cons]
        exact ⟨one.1.append two bounded,by have first := one.2; dsimp only; omega⟩
    have entered : (v.enter x).visited.card = v.visited.card+1 := Finset.card_insert_of_notMem out
    obtain ⟨below,bounded⟩ := group (nexts x) (v.enter x)
    rw [entered] at bounded
    exact ⟨below.enter (fun zero => by rw [zero,offers_dead]) known_ out,bounded⟩

-- A path that comes by no node twice.
structure Simple (edge : α → α → Prop) (root last : α) (path : List α) : Prop where
  starts : path.head? = some root
  ends : path.getLast? = some last
  chain : path.IsChain edge
  once : path.Nodup

-- Safe from being met too late: by way of w, if every simple path that spends the whole depth on the way
-- to w comes by y, or by an earlier node that leads to y.
inductive Secured (edge : α → α → Prop) (root : α) (depth : Nat) : α → Prop
  | root : Secured edge root depth root
  | next {w y : α} : Secured edge root depth w → edge w y →
      (∀ path,Simple edge root w path → path.length = depth → y ∈ path ∨ ∃ z ∈ path.dropLast,edge z y) → Secured edge root depth y

omit [DecidableEq α] in
theorem budget_unique (once : (found.map Prod.fst).Nodup) {a b : Nat} (one : (x,a) ∈ found) (two : (x,b) ∈ found) : a = b := by
  have same := List.inj_on_of_nodup_map once one two rfl
  exact congrArg Prod.snd same

omit [DecidableEq α] in
theorem Route.path (once : (found.map Prod.fst).Nodup) (route : Route nexts found start e) :
    ∃ path,Simple (fun a b => b ∈ nexts a) start.1 e.1 path ∧ path.length + e.2 = start.2+1 ∧
      (∀ z ∈ path,∃ k,e.2 ≤ k ∧ (z,k) ∈ found) ∧ ∀ z ∈ path.dropLast,∃ k,e.2 < k ∧ (z,k) ∈ found := by
  induction route with
  | here there =>
    refine ⟨[start.1],⟨rfl,rfl,List.isChain_singleton _,List.nodup_singleton _⟩,Nat.add_comm _ _,fun z alone => ?_,fun z alone => ?_⟩
    · rw [List.mem_singleton.mp alone]
      exact ⟨start.2,le_rfl,there⟩
    · cases alone
  | @on w y m route next there ih =>
    obtain ⟨path,simple,length,inside,above⟩ := ih
    have new : y ∉ path := by
      intro again
      obtain ⟨k,more,twice⟩ := inside y again
      have same := budget_unique once there twice
      dsimp only at more
      omega
    refine ⟨path ++ [y],⟨?_,by simp,?_,?_⟩,?_,fun z member => ?_,fun z member => ?_⟩
    · rw [List.head?_append,simple.starts]
      rfl
    · rw [List.isChain_append]
      refine ⟨simple.chain,List.isChain_singleton _,fun a last b first => ?_⟩
      rw [simple.ends] at last
      cases last
      cases first
      exact next
    · rw [List.nodup_append]
      refine ⟨simple.once,List.nodup_singleton _,fun a member b alone same => ?_⟩
      rw [List.mem_singleton.mp alone] at same
      exact new (same ▸ member)
    · rw [List.length_append,List.length_singleton]
      dsimp only at length ⊢
      omega
    · rcases List.mem_append.mp member with old | last
      · obtain ⟨k,more,there⟩ := inside z old
        dsimp only at more
        exact ⟨k,by dsimp only; omega,there⟩
      · rw [List.mem_singleton.mp last]
        exact ⟨m,le_rfl,there⟩
    · rw [List.dropLast_concat] at member
      obtain ⟨k,more,there⟩ := inside z member
      dsimp only at more
      exact ⟨k,by dsimp only; omega,there⟩

omit [DecidableEq α] in
theorem Route.reaches (route : Route nexts found start e) : ∃ k,k + e.2 = start.2 ∧ Reaches (fun a b => b ∈ nexts a) start.1 k e.1 := by
  induction route with
  | here => exact ⟨0,Nat.zero_add _,rfl⟩
  | @on w y m _ next _ ih =>
    obtain ⟨k,sum,reaches⟩ := ih
    exact ⟨k+1,by dsimp only at sum ⊢; omega,w,reaches,next⟩

omit [DecidableEq α] in
theorem spare_visited (explored : Explored nexts known cap ys n .empty after found) (uncut : after.truncated = false)
    (there : (x,m) ∈ found) (spare : 2 ≤ m) (next : y ∈ nexts x) (known_ : known y = true) : y ∈ found.map Prod.fst := by
  by_contra absent
  have away : y ∉ after.visited := by
    rw [explored.grown]
    rintro (inside | inside)
    · exact absurd inside (Finset.notMem_empty _)
    · exact absent inside
  rw [explored.cut.mpr (.inr (.inr ⟨_,there,spare,y,next,known_,away⟩))] at uncut
  cases uncut

omit [DecidableEq α] in
theorem root_found {root : α} (explored : Explored nexts known cap [root] n .empty after found) (uncut : after.truncated = false)
    (some_ : n ≠ 0) (known_ : known root = true) : root ∈ found.map Prod.fst := by
  by_contra absent
  have away : root ∉ after.visited := by
    rw [explored.grown]
    rintro (inside | inside)
    · exact absurd inside (Finset.notMem_empty _)
    · exact absent inside
  rw [explored.cut.mpr (.inr (.inl ⟨some_,root,List.mem_singleton.mpr rfl,known_,away⟩))] at uncut
  cases uncut

omit [DecidableEq α] in
theorem secured_found {root : α} (explored : Explored nexts known cap [root] n .empty after found) (uncut : after.truncated = false)
    (some_ : n ≠ 0) (known_ : known root = true) (attached : ∀ a b,b ∈ nexts a → known b = true) (secured : Secured (fun a b => b ∈ nexts a) root n y) :
    y ∈ found.map Prod.fst := by
  induction secured with
  | root => exact root_found explored uncut some_ known_
  | @next w y _ hop covered ih =>
    obtain ⟨⟨_,m⟩,there,rfl⟩ := List.mem_map.mp ih
    by_cases spare : 2 ≤ m
    · exact spare_visited explored uncut there spare hop (attached _ _ hop)
    · have one : m = 1 := by
        have positive := explored.alive some_ _ there
        dsimp only at positive
        omega
      subst one
      obtain ⟨start,alone,route⟩ := explored.routes _ there
      rw [List.mem_singleton.mp alone] at route
      obtain ⟨path,simple,length,inside,above⟩ := route.path explored.once
      rcases covered path simple (Nat.succ.inj length) with onPath | ⟨z,earlier,leads⟩
      · obtain ⟨k,_,found_⟩ := inside y onPath
        exact List.mem_map_of_mem found_
      · obtain ⟨k,more,found_⟩ := above z earlier
        exact spare_visited explored uncut found_ more leads (attached _ _ leads)

end EvoCore.DepthFirst
