import EvoCore.BreadthFirst
import EvoCore.Tables

namespace EvoCore.PluginDependents
open Tables BreadthFirst

-- An admitted plugin with the names its manifest requires; a legacy admission has no manifest.
structure Admitted where
  name : String
  required : Option (List String)
deriving DecidableEq

-- `admitted_name -> set-of-required-deps`.
def requiredDependencyIndex (entries : List Admitted) : Table String (List String) :=
  entries.foldl (fun byName entry =>
    match entry.required with
    | some required => byName.insert entry.name required
    | none => byName) ∅

structure Search where
  visited : List String
  queue : List String
  out : List String

-- The body of the loops over the index.
def meet (byName : Table String (List String)) (current : String) (s : Search) (name : String) : Search :=
  if current ∈ (get byName name).getD [] ∧ name ∉ s.visited then ⟨name::s.visited,s.queue++[name],s.out++[name]⟩ else s

-- `order` is the order in which the hash map lists its keys.
def sweep (byName : Table String (List String)) (order : List String → List String) (current : String) (s : Search) : Search :=
  (order byName.keys).foldl (meet byName current) s

-- `while let Some(current) = queue.pop_front()`.
def pump (byName : Table String (List String)) (order : List String → List String) : Nat → Search → Option Search
  | 0,_ => none
  | fuel+1,s =>
    match s.queue with
    | [] => some s
    | current::rest => pump byName order fuel (sweep byName order current {s with queue := rest})

def transitiveRequiredDependents (order : List String → List String) (fuel : Nat) (entries : List Admitted) (targetPlugin : String) :
    Option (List String) :=
  let byName := requiredDependencyIndex entries
  (pump byName order fuel (sweep byName order targetPlugin ⟨[],[],[]⟩)).map Search.out

def Indexed (byName : Table String (List String)) (a b : String) : Prop := ∃ required,get byName a = some required ∧ b ∈ required

def Step (requires : String → String → Prop) (target : String) : Option String → Option String → Prop
  | none,some x => requires x target
  | some a,some x => requires x a
  | _,none => False

-- How many requirements lead from a plugin to the target at the least.
def Away (requires : String → String → Prop) (target : String) (n : Nat) (x : String) : Prop := Distance (Step requires target) none n (some x)

theorem reaches_chain {requires : String → String → Prop} : (∃ n,Reaches (Step requires target) none n (some x)) ↔ Relation.TransGen requires x target := by
  constructor
  · rintro ⟨n,reaches⟩
    induction n generalizing x with
    | zero => cases reaches
    | succ n ih =>
      obtain ⟨w,before,step⟩ := reaches
      cases w with
      | none => exact .single step
      | some y => exact .head step (ih before)
  · intro chain
    induction chain using Relation.TransGen.head_induction_on with
    | single last => exact ⟨1,none,rfl,last⟩
    | head first _ ih =>
      obtain ⟨n,reaches⟩ := ih
      exact ⟨n+1,_,reaches,first⟩

section Search
variable {byName : Table String (List String)} {order : List String → List String} {target current : String} {s after : Search}
variable {visited : List (Option String × Nat)} {limit d : Nat}

theorem indexed_row : current ∈ (get byName x).getD [] ↔ Indexed byName x current := by
  unfold Indexed
  cases get byName x with
  | none => simp
  | some required => simp

def foundFrom (byName : Table String (List String)) (order : List String → List String) (current : String) (s : Search) : List String :=
  (order byName.keys).filter fun name => current ∈ (get byName name).getD [] ∧ name ∉ s.visited

def Search.grown (s : Search) (found : List String) : Search := ⟨found.reverse++s.visited,s.queue++found,s.out++found⟩

theorem meet_all {names : List String} (apart : names.Nodup) :
    names.foldl (meet byName current) s = s.grown (names.filter fun name => current ∈ (get byName name).getD [] ∧ name ∉ s.visited) := by
  induction names generalizing s with
  | nil => simp [Search.grown]
  | cons name rest ih =>
    obtain ⟨fresh,others⟩ := List.nodup_cons.mp apart
    rw [List.foldl_cons,ih others,List.filter_cons,meet]
    by_cases new : current ∈ (get byName name).getD [] ∧ name ∉ s.visited
    · have same : (rest.filter fun other => current ∈ (get byName other).getD [] ∧ other ∉ name::s.visited) =
          rest.filter fun other => current ∈ (get byName other).getD [] ∧ other ∉ s.visited := by
        apply List.filter_congr
        intro other member
        have apart_ : other ≠ name := fun equal => fresh (equal ▸ member)
        simp [apart_]
      simp only [new,and_self,not_false_eq_true,if_true,decide_true]
      rw [same]
      simp [Search.grown]
    · simp only [new,if_false,decide_false]
      rfl

variable (listing : (order byName.keys).Perm byName.keys)
include listing

theorem sweep_grown : sweep byName order current s = s.grown (foundFrom byName order current s) :=
  meet_all (listing.nodup_iff.mpr (AList.keys_nodup _))

theorem found_apart : (foundFrom byName order current s).Nodup :=
  List.Nodup.filter _ (listing.nodup_iff.mpr (AList.keys_nodup _))

theorem mem_found : x ∈ foundFrom byName order current s ↔ Indexed byName x current ∧ x ∉ s.visited := by
  rw [foundFrom,List.mem_filter,listing.mem_iff,decide_eq_true_eq,indexed_row]
  refine ⟨fun held => held.2,fun held => ⟨?_,held⟩⟩
  obtain ⟨required,there,-⟩ := held.1
  exact (mem_keys _).mpr ⟨required,there⟩

omit listing

def met (names : List String) : Set (Option String) := {x | x = none ∨ ∃ name ∈ names,x = some name}

def waiting (waits : List (String × Nat)) : List (Option String × Nat) := waits.map fun e => (some e.1,e.2)

-- What the search has found, by breadth, when `visited` have been taken from its queue.
structure Breadth (byName : Table String (List String)) (target : String) (limit : Nat) (visited : List (Option String × Nat))
    (waits : List (String × Nat)) (s : Search) : Prop where
  layered : Layered (Step (Indexed byName) target) none limit visited (waiting waits) (met s.visited)
  queue : s.queue = waits.map Prod.fst
  out : (visited++waiting waits).map Prod.fst = none::s.out.map some
  shallow : ∀ e ∈ waits,e.2 ≤ visited.length
  visitedShallow : ∀ e ∈ visited,e.2 < visited.length

variable {waits : List (String × Nat)} {node : Option String}

theorem names_at (found : List String) : (found.map (·,d)).map Prod.fst = found := by
  simp [Function.comp_def]

theorem waiting_at (found : List String) : (waiting (found.map (·,d))).map Prod.fst = found.map some := by
  simp [waiting,Function.comp_def]

variable (order) in
include listing in
theorem layered_sweep (layered : Layered (Step (Indexed byName) target) none limit visited ((node,d)::waiting waits) (met s.visited)) (below : d < limit)
    (steps : ∀ x,Step (Indexed byName) target node (some x) ↔ Indexed byName x current) :
    Layered (Step (Indexed byName) target) none limit (visited++[(node,d)]) (waiting (waits++(foundFrom byName order current s).map (·,d+1)))
      (met (sweep byName order current s).visited) := by
  have unseen (x : String) : some x ∈ met s.visited ↔ x ∈ s.visited := by simp [met]
  let found := (foundFrom byName order current s).map some
  have apart : found.Nodup := (found_apart listing).map (Option.some_injective _)
  have new : ∀ y ∈ found,y ∉ met s.visited := by
    intro y member
    obtain ⟨x,inside,rfl⟩ := List.mem_map.mp member
    rw [unseen]
    exact ((mem_found listing).mp inside).2
  have stepped : ∀ y ∈ found,Step (Indexed byName) target node y ∧ d < limit := by
    intro y member
    obtain ⟨x,inside,rfl⟩ := List.mem_map.mp member
    exact ⟨(steps x).mpr ((mem_found listing).mp inside).1,below⟩
  have all : d < limit → ∀ y,Step (Indexed byName) target node y → y ∈ met s.visited ∨ y ∈ found := by
    intro _ y step
    cases y with
    | none => cases node <;> exact step.elim
    | some x =>
      by_cases old : x ∈ s.visited
      · exact .inl ((unseen x).mpr old)
      · exact .inr (List.mem_map_of_mem ((mem_found listing).mpr ⟨(steps x).mp step,old⟩))
  have queue : waiting (waits++(foundFrom byName order current s).map (·,d+1)) = waiting waits++found.map (·,d+1) := by
    simp [waiting,found]
  have seen : met (sweep byName order current s).visited = met s.visited ∪ {y | y ∈ found} := by
    ext y
    rw [sweep_grown listing]
    cases y with
    | none => simp [met]
    | some x => simp [met,Search.grown,found,or_comm]
  rw [queue,seen]
  exact layered.visit apart new stepped all

theorem start_layered : Layered (Step (Indexed byName) target) none limit [] ((none,0)::waiting []) (met []) := by
  have empty : met [] = {none} := by
    ext y
    simp [met]
  rw [empty]
  exact layered_start (Step (Indexed byName) target) none limit

include listing in
theorem breadth_start : Breadth byName target (limit+1) [(none,0)] ((foundFrom byName order target ⟨[],[],[]⟩).map (·,1))
    (sweep byName order target ⟨[],[],[]⟩) where
  layered := by
    exact layered_sweep (s := ⟨[],[],[]⟩) order listing start_layered (Nat.succ_pos limit) fun x => .rfl
  queue := by
    rw [sweep_grown listing,names_at]
    rfl
  out := by
    rw [sweep_grown listing,List.map_append,waiting_at]
    rfl
  shallow e member := by
    obtain ⟨x,-,rfl⟩ := List.mem_map.mp member
    exact Nat.le_refl 1
  visitedShallow e member := by
    rw [List.mem_singleton.mp member]
    exact Nat.zero_lt_one

include listing in
theorem breadth_sweep {x : String} (breadth : Breadth byName target limit visited ((x,d)::waits) s) (more : visited.length < limit) :
    Breadth byName target limit (visited++[(some x,d)]) (waits++(foundFrom byName order x {s with queue := waits.map Prod.fst}).map (·,d+1))
      (sweep byName order x {s with queue := waits.map Prod.fst}) where
  layered := by
    have depth := breadth.shallow (x,d) List.mem_cons_self
    exact layered_sweep (s := {s with queue := waits.map Prod.fst}) order listing breadth.layered (Nat.lt_of_le_of_lt depth more) fun y => .rfl
  queue := by
    rw [sweep_grown listing,List.map_append,names_at]
    rfl
  out := by
    have before := breadth.out
    have both (more : List (String × Nat)) : waiting (waits++more) = waiting waits++waiting more := List.map_append
    rw [sweep_grown listing,both,List.append_assoc,List.singleton_append,← List.cons_append,← List.append_assoc,List.map_append,waiting_at]
    simp only [Search.grown,List.map_append]
    rw [← List.cons_append,← before,List.map_append]
    rfl
  shallow e member := by
    rw [List.length_append,List.length_singleton]
    have depth := breadth.shallow (x,d) List.mem_cons_self
    rcases List.mem_append.mp member with behind | found
    · exact Nat.le_succ_of_le (breadth.shallow e (List.mem_cons_of_mem _ behind))
    · obtain ⟨y,-,rfl⟩ := List.mem_map.mp found
      exact Nat.succ_le_succ depth
  visitedShallow e member := by
    rw [List.length_append,List.length_singleton]
    have depth := breadth.shallow (x,d) List.mem_cons_self
    rcases List.mem_append.mp member with before | last
    · exact Nat.lt_succ_of_lt (breadth.visitedShallow e before)
    · rw [List.mem_singleton.mp last]
      exact Nat.lt_succ_of_le depth

theorem step_key (step : Step (Indexed byName) target node (some x)) : x ∈ byName.keys := by
  refine (mem_keys _).mpr ?_
  cases node with
  | none => exact step.imp fun _ held => held.1
  | some y => exact step.imp fun _ held => held.1

theorem breadth_keys (breadth : Breadth byName target limit visited waits s) : visited.length ≤ byName.keys.length+1 := by
  have inside : visited.map Prod.fst ⊆ none::byName.keys.map some := by
    intro y member
    obtain ⟨e,there,rfl⟩ := List.mem_map.mp member
    have reaches := (breadth.layered.nearest e (List.mem_append_left _ there)).1
    cases named : e.1 with
    | none => exact List.mem_cons_self
    | some x =>
      rw [named] at reaches
      obtain ⟨n,depth⟩ : ∃ n,e.2 = n+1 := by
        cases depth : e.2 with
        | zero =>
          rw [depth] at reaches
          cases reaches
        | succ n => exact ⟨n,rfl⟩
      rw [depth] at reaches
      obtain ⟨y,-,step⟩ := reaches
      exact List.mem_cons_of_mem _ (List.mem_map_of_mem (step_key step))
  have apart := breadth.layered.visited_parts.1
  have few := (List.subperm_of_subset apart inside).length_le
  rwa [List.length_map,List.length_cons,List.length_map] at few

include listing in
theorem pump_ends (enough : byName.keys.length+1 < limit) (breadth : Breadth byName target limit visited waits s)
    (fuelled : visited.length+fuel = limit) :
    ∃ visited after,pump byName order fuel s = some after ∧ Breadth byName target limit visited [] after ∧ visited.length ≤ limit := by
  induction fuel generalizing visited waits s with
  | zero =>
    have few := breadth_keys breadth
    omega
  | succ fuel ih =>
    cases waits with
    | nil =>
      refine ⟨visited,s,?_,breadth,by omega⟩
      rw [pump,breadth.queue]
      rfl
    | cons front waits =>
      obtain ⟨x,d⟩ := front
      rw [pump,breadth.queue]
      exact ih (breadth_sweep listing breadth (by omega)) (by rw [List.length_append,List.length_singleton]; omega)

theorem breadth_reached (breadth : Breadth byName target limit visited [] s) (few : visited.length ≤ limit)
    (reaches : Reaches (Step (Indexed byName) target) none n y) : y ∈ visited.map Prod.fst := by
  have known (y : Option String) : y ∈ met s.visited ↔ y ∈ visited.map Prod.fst := by
    have known := breadth.layered.known y
    rwa [show visited++waiting [] = visited from List.append_nil _] at known
  induction n generalizing y with
  | zero =>
    rw [show y = none from reaches,← known]
    exact breadth.layered.origin
  | succ n ih =>
    obtain ⟨w,before,step⟩ := reaches
    obtain ⟨e,member,rfl⟩ := List.mem_map.mp (ih before)
    exact (known y).mp (breadth.layered.closed e member (Nat.lt_of_lt_of_le (breadth.visitedShallow e member) few) y step)

def Nearer (requires : String → String → Prop) (target a b : String) : Prop :=
  ∀ n m,Away requires target n a → Away requires target m b → n ≤ m

theorem breadth_out (breadth : Breadth byName target limit visited [] s) (few : visited.length ≤ limit) :
    s.out.Nodup ∧ (∀ x,x ∈ s.out ↔ Relation.TransGen (Indexed byName) x target) ∧ s.out.Pairwise (Nearer (Indexed byName) target) := by
  obtain ⟨apart,nearest,ordered⟩ := breadth.layered.visited_parts
  have out : visited.map Prod.fst = none::s.out.map some := by
    have out := breadth.out
    rwa [show visited++waiting [] = visited from List.append_nil _] at out
  have listed (x : String) : x ∈ s.out ↔ some x ∈ visited.map Prod.fst := by simp [out]
  refine ⟨?_,fun x => ?_,?_⟩
  · rw [out] at apart
    exact (List.nodup_cons.mp apart).2.of_map
  · rw [listed,← reaches_chain]
    constructor
    · intro member
      obtain ⟨e,there,same⟩ := List.mem_map.mp member
      exact ⟨e.2,same ▸ (nearest e there).2.1⟩
    · rintro ⟨n,reaches⟩
      exact breadth_reached breadth few reaches
  · have names : (visited.map Prod.fst).Pairwise fun a b => ∀ n m,Distance (Step (Indexed byName) target) none n a →
        Distance (Step (Indexed byName) target) none m b → n ≤ m := by
      refine List.pairwise_map.mpr ((List.pairwise_map.mp ordered).imp_of_mem ?_)
      intro e f inside later le n m first second
      rwa [distance_unique first (nearest e inside).2,distance_unique second (nearest f later).2]
    rw [out,List.pairwise_cons,List.pairwise_map] at names
    exact names.2

end Search

-- The manifest of one admitted plugin names another as required.
def Requires (entries : List Admitted) (a b : String) : Prop := ∃ e ∈ entries,e.name = a ∧ ∃ required,e.required = some required ∧ b ∈ required

theorem index_from {entries : List Admitted} (once : (entries.map Admitted.name).Nodup) (byName : Table String (List String)) :
    get (entries.foldl (fun byName entry =>
      match entry.required with
      | some required => byName.insert entry.name required
      | none => byName) byName) a = some required ↔
      (∃ e ∈ entries,e.name = a ∧ e.required = some required) ∨ (∀ e ∈ entries,e.name = a → e.required = none) ∧ get byName a = some required := by
  induction entries generalizing byName with
  | nil => simp
  | cons entry rest ih =>
    obtain ⟨fresh,others⟩ := List.nodup_cons.mp once
    rw [List.foldl_cons,ih others]
    have absent (same : entry.name = a) : ∀ e ∈ rest,e.name ≠ a := by
      rintro e member rfl
      exact fresh (same ▸ List.mem_map_of_mem member)
    by_cases same : entry.name = a
    · cases manifest : entry.required <;> grind [get_insert]
    · cases manifest : entry.required <;> grind [get_insert]

theorem index_requires {entries : List Admitted} (once : (entries.map Admitted.name).Nodup) :
    Indexed (requiredDependencyIndex entries) a b ↔ Requires entries a b := by
  unfold Indexed Requires requiredDependencyIndex
  simp only [index_from once,get_empty]
  grind

theorem index_eq {entries : List Admitted} (once : (entries.map Admitted.name).Nodup) : Indexed (requiredDependencyIndex entries) = Requires entries := by
  funext a b
  exact propext (index_requires once)

-- The search lists whatever cannot do without the target, each once and the nearest first. The target is listed
-- with its dependents where its own requirements lead back to it.
theorem dependents_by_breadth {entries : List Admitted} (once : (entries.map Admitted.name).Nodup)
    (listing : (order (requiredDependencyIndex entries).keys).Perm (requiredDependencyIndex entries).keys)
    (enough : (requiredDependencyIndex entries).keys.length < fuel) (target : String) :
    ∃ dependents,transitiveRequiredDependents order fuel entries target = some dependents ∧ dependents.Nodup ∧
      (∀ x,x ∈ dependents ↔ Relation.TransGen (Requires entries) x target) ∧ dependents.Pairwise (Nearer (Requires entries) target) := by
  obtain ⟨visited,after,ends,breadth,few⟩ := pump_ends listing (Nat.succ_lt_succ enough) (breadth_start listing) (Nat.add_comm 1 fuel)
  exact ⟨after.out,by rw [transitiveRequiredDependents,ends]; rfl,index_eq once ▸ breadth_out breadth few⟩

-- The screen needs the queue, and both need the player.
def radio : List Admitted := [⟨"player",some []⟩,⟨"queue",some ["player"]⟩,⟨"screen",some ["queue","player"]⟩,⟨"legacy",none⟩]

theorem radio_dependents : ∃ dependents,transitiveRequiredDependents id 4 radio "player" = some dependents ∧ dependents.Nodup ∧
    (∀ x,x ∈ dependents ↔ Relation.TransGen (Requires radio) x "player") ∧ dependents.Pairwise (Nearer (Requires radio) "player") :=
  dependents_by_breadth (by decide) (.refl _) (by decide) "player"

end EvoCore.PluginDependents
