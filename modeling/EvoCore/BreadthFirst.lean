import Mathlib

namespace EvoCore.BreadthFirst

-- What a search by breadth keeps while it visits, over an arbitrary relation. Entries are
-- nodes with the depth at which they were met; those that wait follow those that are visited.
variable {α : Type} {edge : α → α → Prop} {start x y : α} {limit n d : Nat} {visited queue rest : List (α × Nat)} {found : List α}
  {seen : Set α}

def Reaches (edge : α → α → Prop) (start : α) : Nat → α → Prop
  | 0,x => x = start
  | n+1,x => ∃ w,Reaches edge start n w ∧ edge w x

def Distance (edge : α → α → Prop) (start : α) (n : Nat) (x : α) : Prop :=
  Reaches edge start n x ∧ ∀ m < n,¬ Reaches edge start m x

theorem distance_unique (first : Distance edge start n x) (second : Distance edge start d x) : n = d := by
  rcases Nat.lt_trichotomy n d with less | same | more
  · exact absurd first.1 (second.2 n less)
  · exact same
  · exact absurd second.1 (first.2 d more)

def Within (edge : α → α → Prop) (start : α) (limit : Nat) (x : α) : Prop := ∃ m ≤ limit,Reaches edge start m x

structure Layered (edge : α → α → Prop) (start : α) (limit : Nat) (visited queue : List (α × Nat)) (seen : Set α) : Prop where
  apart : ((visited ++ queue).map Prod.fst).Nodup
  ordered : ((visited ++ queue).map Prod.snd).Pairwise (· ≤ ·)
  near : ∀ front ∈ queue.head?,∀ e ∈ queue,e.2 ≤ front.2 + 1
  known : ∀ x,x ∈ seen ↔ x ∈ (visited ++ queue).map Prod.fst
  nearest : ∀ e ∈ visited ++ queue,Distance edge start e.2 e.1
  within : ∀ e ∈ visited ++ queue,e.2 ≤ limit
  closed : ∀ e ∈ visited,e.2 < limit → ∀ y,edge e.1 y → y ∈ seen
  origin : start ∈ seen

theorem layered_start (edge : α → α → Prop) (start : α) (limit : Nat) : Layered edge start limit [] [(start,0)] {start} where
  apart := by simp
  ordered := by simp
  near front member e inside := by simp_all
  known x := by simp
  nearest e member := by
    rw [List.nil_append,List.mem_singleton] at member
    rw [member]
    exact ⟨rfl,fun m less => absurd less (Nat.not_lt_zero m)⟩
  within e member := by
    rw [List.nil_append,List.mem_singleton] at member
    rw [member]
    exact Nat.zero_le limit
  closed e member := by cases member
  origin := rfl

theorem Layered.waits_behind (layered : Layered edge start limit visited queue seen) {v q : α × Nat} (inside : v ∈ visited)
    (waits : q ∈ queue) : v.2 ≤ q.2 := by
  have ordered := layered.ordered
  rw [List.map_append,List.pairwise_append] at ordered
  exact ordered.2.2 v.2 (List.mem_map_of_mem inside) q.2 (List.mem_map_of_mem waits)

theorem Layered.front_least (layered : Layered edge start limit visited ((x,d)::rest) seen) {q : α × Nat}
    (waits : q ∈ (x,d)::rest) : d ≤ q.2 := by
  have ordered := layered.ordered
  rw [List.map_append,List.pairwise_append] at ordered
  have queued := ordered.2.1
  rw [List.map_cons,List.pairwise_cons] at queued
  rcases List.mem_cons.mp waits with rfl | behind
  · exact Nat.le_refl d
  · exact queued.1 q.2 (List.mem_map_of_mem behind)

-- Whatever is no further than what waits has been seen, by induction on its distance.
theorem Layered.near_seen (layered : Layered edge start limit visited queue seen) (bound : ∀ q ∈ queue,d ≤ q.2)
    (inside : d ≤ limit) (reaches : Reaches edge start n x) (close : n ≤ d) : x ∈ seen := by
  induction n generalizing x with
  | zero =>
    have same : x = start := reaches
    exact same ▸ layered.origin
  | succ n ih =>
    obtain ⟨w,before,step⟩ := reaches
    have known := (layered.known w).mp (ih before (by omega))
    obtain ⟨e,member,rfl⟩ := List.mem_map.mp known
    have depth : e.2 ≤ n := by
      by_contra more
      exact (layered.nearest e member).2 n (by omega) before
    rcases List.mem_append.mp member with visited_ | waits
    · exact layered.closed e visited_ (by omega) x step
    · have far := bound e waits
      omega

theorem Layered.visit (layered : Layered edge start limit visited ((x,d)::rest) seen) (fresh : found.Nodup)
    (new : ∀ y ∈ found,y ∉ seen) (stepped : ∀ y ∈ found,edge x y ∧ d < limit)
    (all : d < limit → ∀ y,edge x y → y ∈ seen ∨ y ∈ found) :
    Layered edge start limit (visited ++ [(x,d)]) (rest ++ found.map (·,d+1)) (seen ∪ {y | y ∈ found}) := by
  have shape : (visited ++ [(x,d)]) ++ (rest ++ found.map (·,d+1)) = (visited ++ (x,d)::rest) ++ found.map (·,d+1) := by simp
  have names : (found.map fun y => (y,d+1)).map Prod.fst = found := by simp [Function.comp_def]
  have top : ∀ e ∈ visited ++ (x,d)::rest,e.2 ≤ d + 1 := by
    intro e member
    rcases List.mem_append.mp member with inside | waits
    · have := layered.waits_behind inside List.mem_cons_self
      omega
    · exact layered.near (x,d) rfl e waits
  have front : Distance edge start d x := layered.nearest (x,d) (List.mem_append_right _ List.mem_cons_self)
  have late : ∀ e ∈ found.map (·,d+1),e.2 = d + 1 ∧ e.1 ∈ found := by
    intro e member
    obtain ⟨y,inside,rfl⟩ := List.mem_map.mp member
    exact ⟨rfl,inside⟩
  refine ⟨?_,?_,?_,?_,?_,?_,?_,.inl layered.origin⟩
  · rw [shape,List.map_append,names,List.nodup_append]
    refine ⟨layered.apart,fresh,?_⟩
    rintro a old b inside rfl
    exact new a inside ((layered.known a).mpr old)
  · rw [shape,List.map_append,List.pairwise_append]
    refine ⟨layered.ordered,?_,?_⟩
    · rw [List.map_map]
      exact List.pairwise_map.mpr (List.pairwise_of_forall fun _ _ => Nat.le_refl (d+1))
    · intro a old b behind
      obtain ⟨e,member,rfl⟩ := List.mem_map.mp old
      obtain ⟨q,inside,rfl⟩ := List.mem_map.mp behind
      rw [(late q inside).1]
      exact top e member
  · intro head first e member
    -- The new front is no nearer than the old one, and nothing lies behind d + 1.
    have waits : head ∈ rest ++ found.map (·,d+1) := List.mem_of_head? first
    have least : d ≤ head.2 := by
      rcases List.mem_append.mp waits with behind | inside
      · exact layered.front_least (List.mem_cons_of_mem _ behind)
      · rw [(late head inside).1]
        exact Nat.le_succ d
    rcases List.mem_append.mp member with behind | inside
    · have := top e (List.mem_append_right _ (List.mem_cons_of_mem _ behind))
      omega
    · rw [(late e inside).1]
      omega
  · intro y
    rw [shape,List.map_append,names,List.mem_append,← layered.known]
    rfl
  · intro e member
    rw [shape] at member
    rcases List.mem_append.mp member with old | inside
    · exact layered.nearest e old
    · obtain ⟨depth,lately⟩ := late e inside
      rw [depth]
      refine ⟨⟨x,front.1,(stepped e.1 lately).1⟩,fun m less reaches => ?_⟩
      refine new e.1 lately (layered.near_seen (fun q waits => layered.front_least waits) ?_ reaches (Nat.le_of_lt_succ less))
      exact layered.within (x,d) (List.mem_append_right _ List.mem_cons_self)
  · intro e member
    rw [shape] at member
    rcases List.mem_append.mp member with old | inside
    · exact layered.within e old
    · obtain ⟨depth,lately⟩ := late e inside
      rw [depth]
      exact (stepped e.1 lately).2
  · intro e member below y step
    rcases List.mem_append.mp member with old | last
    · exact .inl (layered.closed e old below y step)
    · rw [List.mem_singleton.mp last] at below step
      exact all below y step

-- What a search that ended has found: everything within the limit, or a front part of it of the given size.
structure Searched (edge : α → α → Prop) (start : α) (limit cap : Nat) (visited : List (α × Nat)) (truncated : Bool) : Prop where
  once : (visited.map Prod.fst).Nodup
  nearest : ∀ e ∈ visited,e.2 ≤ limit ∧ Distance edge start e.2 e.1
  ordered : (visited.map Prod.snd).Pairwise (· ≤ ·)
  complete : truncated = false → ∀ x,x ∈ visited.map Prod.fst ↔ Within edge start limit x
  more : truncated = true ↔ ∃ nodes : List α,nodes.Nodup ∧ cap < nodes.length ∧ ∀ x ∈ nodes,Within edge start limit x
  exactly : truncated = true → visited.length = cap
  closest : truncated = true → ∀ x,Within edge start limit x → x ∉ visited.map Prod.fst → ∀ e ∈ visited,∀ n,
    Distance edge start n x → e.2 ≤ n

theorem Layered.visited_parts (layered : Layered edge start limit visited queue seen) :
    (visited.map Prod.fst).Nodup ∧ (∀ e ∈ visited,e.2 ≤ limit ∧ Distance edge start e.2 e.1) ∧
      (visited.map Prod.snd).Pairwise (· ≤ ·) := by
  have apart := layered.apart
  have ordered := layered.ordered
  rw [List.map_append] at apart ordered
  exact ⟨(List.nodup_append.mp apart).1,fun e inside =>
    ⟨layered.within e (List.mem_append_left _ inside),layered.nearest e (List.mem_append_left _ inside)⟩,(List.pairwise_append.mp ordered).1⟩

theorem Layered.nodes_within (layered : Layered edge start limit visited queue seen) :
    ∀ x ∈ (visited ++ queue).map Prod.fst,Within edge start limit x := by
  intro x member
  obtain ⟨e,inside,rfl⟩ := List.mem_map.mp member
  exact ⟨e.2,layered.within e inside,(layered.nearest e inside).1⟩

theorem Layered.exhausted (layered : Layered edge start limit visited [] seen) {cap : Nat} (fits : visited.length ≤ cap) :
    Searched edge start limit cap visited false := by
  obtain ⟨once,nearest,ordered⟩ := layered.visited_parts
  have complete : ∀ x,x ∈ visited.map Prod.fst ↔ Within edge start limit x := by
    intro x
    constructor
    · intro member
      exact layered.nodes_within x (by simpa using member)
    · rintro ⟨n,inside,reaches⟩
      have known := (layered.known x).mp (layered.near_seen (fun q waits => by cases waits) (Nat.le_refl limit) reaches inside)
      simpa using known
  refine ⟨once,nearest,ordered,fun _ => complete,?_,(fun cut => by cases cut),(fun cut => by cases cut)⟩
  refine iff_of_false Bool.false_ne_true ?_
  rintro ⟨nodes,distinct,many,within⟩
  have few := (List.subperm_of_subset distinct fun x inside => (complete x).mpr (within x inside)).length_le
  rw [List.length_map] at few
  omega

theorem Layered.cut (layered : Layered edge start limit visited ((x,d)::rest) seen) {cap : Nat} (full : visited.length = cap) :
    Searched edge start limit cap visited true := by
  obtain ⟨once,nearest,ordered⟩ := layered.visited_parts
  refine ⟨once,nearest,ordered,fun whole => (by cases whole),?_,fun _ => full,?_⟩
  · refine iff_of_true rfl ⟨(visited ++ (x,d)::rest).map Prod.fst,layered.apart,?_,layered.nodes_within⟩
    rw [List.length_map,List.length_append,List.length_cons]
    omega
  · intro _ y _ omitted e inside n distance
    -- What is nearer than a visited node is nearer than all that waits.
    by_contra nearer
    have below : ∀ q ∈ (x,d)::rest,e.2 ≤ q.2 := fun q waits => layered.waits_behind inside waits
    have bound := layered.within e (List.mem_append_left _ inside)
    have known := (layered.known y).mp (layered.near_seen below bound distance.1 (by omega))
    obtain ⟨other,member,rfl⟩ := List.mem_map.mp known
    rcases List.mem_append.mp member with visited_ | waits
    · exact omitted (List.mem_map_of_mem visited_)
    · have depth := distance_unique (layered.nearest other member) distance
      have far := below other waits
      omega

end EvoCore.BreadthFirst
