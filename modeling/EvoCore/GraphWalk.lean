import EvoCore.BreadthFirst
import EvoCore.GraphIndex

namespace EvoCore.GraphWalk
open Tables Buckets Runs RelationGraph GraphIndex BreadthFirst

inductive WalkDirection where
  | forward
  | inverse
  | both
deriving DecidableEq,Repr

structure WalkScope where
  predicates : Finset String
  direction : WalkDirection
  maxDepth : Nat
  maxVisits : Nat

def WalkScope.new : WalkScope := ⟨∅,.forward,2^64-1,1000⟩

structure VisitRecord where
  canonicalId : String
  depth : Nat
  arrivedVia : Option String
deriving DecidableEq,Repr

structure WalkResult where
  visited : List VisitRecord
  truncated : Bool
deriving DecidableEq,Repr

-- The order in which the hash sets give out what they hold.
structure Enumeration where
  predicates : Finset String → List String
  forward : String × String → Finset String → List String
  inverse : String × String → Finset String → List String
  predicates_complete : ∀ s,(predicates s : Multiset String) = s.val
  forward_complete : ∀ bucket s,(forward bucket s : Multiset String) = s.val
  inverse_complete : ∀ bucket s,(inverse bucket s : Multiset String) = s.val

structure WalkState where
  visited : List VisitRecord
  seen : Finset String
  queue : List (String × Nat × Option String)

def enqueue (depth : Nat) (predicate : String) (s : WalkState) (t : String) : WalkState :=
  if t ∈ s.seen then s else {s with seen := insert t s.seen,queue := s.queue ++ [(t,depth+1,some predicate)]}

def follow (order : Finset String → List String) (bucket : Option (Finset String)) (depth : Nat) (predicate : String) (s : WalkState) :
    WalkState :=
  match bucket with
  | some targets => (order targets).foldl (enqueue depth predicate) s
  | none => s

variable (g : GraphInner) (enumeration : Enumeration) (scope : WalkScope)

def followPredicate (id : String) (depth : Nat) (s : WalkState) (predicate : String) : WalkState :=
  let ahead :=
    if scope.direction = .forward ∨ scope.direction = .both then
      follow (enumeration.forward (id,predicate)) (get g.forward (id,predicate)) depth predicate s
    else s
  if scope.direction = .inverse ∨ scope.direction = .both then
    follow (enumeration.inverse (id,predicate)) (get g.inverse (id,predicate)) depth predicate ahead
  else ahead

-- The while loop; None where the fuel runs out.
def walkLoop : Nat → WalkState → Option WalkResult
  | 0,_ => none
  | fuel+1,s =>
    match s.queue with
    | [] => some ⟨s.visited,false⟩
    | (id,depth,arrivedVia)::rest =>
      if scope.maxVisits ≤ s.visited.length then some ⟨s.visited,true⟩
      else
        let visiting := {s with queue := rest,visited := s.visited ++ [⟨id,depth,arrivedVia⟩]}
        if scope.maxDepth ≤ depth then walkLoop fuel visiting
        else walkLoop fuel ((enumeration.predicates scope.predicates).foldl (followPredicate g enumeration scope id depth) visiting)

def walk (fuel : Nat) (startId : String) : Option WalkResult :=
  walkLoop g enumeration scope fuel ⟨[],insert startId ∅,[(startId,0,none)]⟩

-- One hop along a visible relation of the scope.
def Edge (x y : String) : Prop := ∃ predicate ∈ scope.predicates,
  (scope.direction ≠ .inverse ∧ Visible g ⟨x,predicate,y⟩) ∨ (scope.direction ≠ .forward ∧ Visible g ⟨y,predicate,x⟩)

variable {g enumeration scope} {id t predicate : String} {depth : Nat} {s : WalkState}

-- What a pass over edges adds to the queue: each new subject once, with the predicate it was met by.
def Gains (depth : Nat) (s after : WalkState) (reached : String → Prop) : Prop := ∃ found : List (String × String),
  after = ⟨s.visited,s.seen ∪ (found.map Prod.fst).toFinset,s.queue ++ found.map fun e => (e.1,depth+1,some e.2)⟩ ∧
  (found.map Prod.fst).Nodup ∧ (∀ e ∈ found,e.1 ∉ s.seen ∧ reached e.1) ∧ ∀ t,reached t → t ∈ after.seen

theorem gains_nothing : Gains depth s s (fun _ => False) :=
  ⟨[],by simp,List.nodup_nil,(fun _ member => by cases member),fun _ none_ => none_.elim⟩

theorem gains_enqueue (depth : Nat) (predicate : String) (s : WalkState) (t : String) :
    Gains depth s (enqueue depth predicate s t) (fun other => other = t) := by
  unfold enqueue
  split
  · rename_i known
    exact ⟨[],by simp,List.nodup_nil,(fun _ member => by cases member),fun other same => same ▸ known⟩
  · rename_i new
    refine ⟨[(t,predicate)],?_,by simp,?_,fun other same => ?_⟩
    · have added : s.seen ∪ [t].toFinset = insert t s.seen := by
        rw [List.toFinset_cons,List.toFinset_nil,Finset.union_insert,Finset.union_empty]
      rw [List.map_singleton,added]
      rfl
    · intro e member
      rw [List.mem_singleton.mp member]
      exact ⟨new,rfl⟩
    · rw [same]
      exact Finset.mem_insert_self t _

theorem gains_both {middle after : WalkState} {first second : String → Prop} (one : Gains depth s middle first)
    (two : Gains depth middle after second) : Gains depth s after (fun t => first t ∨ second t) := by
  obtain ⟨found,rfl,apart,new,known⟩ := one
  obtain ⟨later,rfl,apart_,new_,known_⟩ := two
  refine ⟨found ++ later,?_,?_,?_,?_⟩
  · simp [Finset.union_assoc]
  · rw [List.map_append,List.nodup_append]
    refine ⟨apart,apart_,?_⟩
    rintro a old b late rfl
    obtain ⟨e,member,rfl⟩ := List.mem_map.mp late
    exact (new_ e member).1 (Finset.mem_union_right _ (List.mem_toFinset.mpr old))
  · intro e member
    rcases List.mem_append.mp member with old | late
    · exact ⟨(new e old).1,.inl (new e old).2⟩
    · exact ⟨fun seen => (new_ e late).1 (Finset.mem_union_left _ seen),.inr (new_ e late).2⟩
  · intro t reached
    rcases reached with old | late
    · exact Finset.mem_union_left _ (known t old)
    · exact known_ t late

theorem gains_congr {after : WalkState} {first second : String → Prop} (gains : Gains depth s after first)
    (same : ∀ t,first t ↔ second t) : Gains depth s after second := by
  have equal : first = second := funext fun t => propext (same t)
  exact equal ▸ gains

theorem gains_fold {α : Type} {visit : WalkState → α → WalkState} {reached : α → String → Prop}
    (each : ∀ s a,Gains depth s (visit s a) (reached a)) (items : List α) (s : WalkState) :
    Gains depth s (items.foldl visit s) (fun t => ∃ a ∈ items,reached a t) := by
  induction items generalizing s with
  | nil => exact gains_congr gains_nothing (by simp)
  | cons a rest ih =>
    rw [List.foldl_cons]
    exact gains_congr (gains_both (each s a) (ih _)) (by simp)

theorem gains_follow {order : Finset String → List String} (complete : ∀ s,(order s : Multiset String) = s.val)
    (index : Index (String × String) String) (bucket : String × String) (predicate : String) (s : WalkState) :
    Gains depth s (follow order (get index bucket) depth predicate s) (fun t => Linked index bucket t) := by
  unfold follow Linked
  cases get index bucket with
  | none => exact gains_congr gains_nothing (by simp)
  | some targets =>
    refine gains_congr (gains_fold (fun s t => gains_enqueue depth predicate s t) (order targets) s) fun t => ?_
    have listed : t ∈ order targets ↔ t ∈ targets := by
      rw [← Multiset.mem_coe,complete,Finset.mem_val]
    simp [listed]

theorem gains_predicate (agrees : Agrees g) (id predicate : String) (s : WalkState) :
    Gains depth s (followPredicate g enumeration scope id depth s predicate) (fun t =>
      (scope.direction ≠ .inverse ∧ Visible g ⟨id,predicate,t⟩) ∨ (scope.direction ≠ .forward ∧ Visible g ⟨t,predicate,id⟩)) := by
  have ahead : ∀ s,Gains depth s (follow (enumeration.forward (id,predicate)) (get g.forward (id,predicate)) depth predicate s)
      (fun t => Visible g ⟨id,predicate,t⟩) := by
    intro s
    refine gains_congr (gains_follow (enumeration.forward_complete _) _ _ _ s) fun t => ?_
    exact agrees.forward id predicate t
  have back : ∀ s,Gains depth s (follow (enumeration.inverse (id,predicate)) (get g.inverse (id,predicate)) depth predicate s)
      (fun t => Visible g ⟨t,predicate,id⟩) := by
    intro s
    refine gains_congr (gains_follow (enumeration.inverse_complete _) _ _ _ s) fun t => ?_
    exact agrees.inverse t predicate id
  unfold followPredicate
  cases direction : scope.direction with
  | forward =>
    simp only [true_or,if_true,reduceCtorEq,or_self,if_false]
    exact gains_congr (ahead s) (by simp)
  | inverse =>
    simp only [true_or,if_true,reduceCtorEq,or_self,if_false]
    exact gains_congr (back s) (by simp)
  | both =>
    simp only [or_true,if_true]
    exact gains_congr (gains_both (ahead s) (back _)) (by simp)

theorem gains_expansion (agrees : Agrees g) (id : String) (s : WalkState) :
    Gains depth s ((enumeration.predicates scope.predicates).foldl (followPredicate g enumeration scope id depth) s) (Edge g scope id) := by
  refine gains_congr (gains_fold (fun s predicate => gains_predicate agrees id predicate s) _ s) fun t => ?_
  have listed : ∀ predicate,predicate ∈ enumeration.predicates scope.predicates ↔ predicate ∈ scope.predicates := by
    intro predicate
    rw [← Multiset.mem_coe,enumeration.predicates_complete,Finset.mem_val]
  simp only [listed,Edge]

def visitEntry (v : VisitRecord) : String × Nat := (v.canonicalId,v.depth)
def queueEntry (q : String × Nat × Option String) : String × Nat := (q.1,q.2.1)

-- The library's invariant, read off the state of the walk.
def Walking (g : GraphInner) (scope : WalkScope) (startId : String) (s : WalkState) : Prop :=
  Layered (Edge g scope) startId scope.maxDepth (s.visited.map visitEntry) (s.queue.map queueEntry) {x | x ∈ s.seen}

def visitFront (g : GraphInner) (enumeration : Enumeration) (scope : WalkScope) (id : String) (depth : Nat) (via : Option String)
    (rest : List (String × Nat × Option String)) (s : WalkState) : WalkState :=
  if scope.maxDepth ≤ depth then {s with queue := rest,visited := s.visited ++ [⟨id,depth,via⟩]}
  else (enumeration.predicates scope.predicates).foldl (followPredicate g enumeration scope id depth)
    {s with queue := rest,visited := s.visited ++ [⟨id,depth,via⟩]}

theorem visitFront_visited (agrees : Agrees g) : (visitFront g enumeration scope id depth via rest s).visited = s.visited ++ [⟨id,depth,via⟩] := by
  unfold visitFront
  split
  · rfl
  · obtain ⟨found,after,_⟩ := @gains_expansion g enumeration scope depth agrees id
      {s with queue := rest,visited := s.visited ++ [⟨id,depth,via⟩]}
    rw [after]

theorem visit_walking (agrees : Agrees g) (walking : Walking g scope startId s) (front : s.queue = (id,depth,via)::rest) :
    Walking g scope startId (visitFront g enumeration scope id depth via rest s) := by
  rw [Walking,front] at walking
  have layered : Layered (Edge g scope) startId scope.maxDepth (s.visited.map visitEntry) ((id,depth)::rest.map queueEntry)
      {x | x ∈ s.seen} := walking
  unfold visitFront
  split
  · rename_i deep
    have none_ : ∀ y ∈ ([] : List String),y ∉ {x | x ∈ s.seen} := fun _ member => by cases member
    have visited := layered.visit List.nodup_nil none_ (fun _ member => by cases member) (fun below => by omega)
    simpa [Walking,visitEntry] using visited
  · rename_i shallow
    obtain ⟨found,after,apart,new,known⟩ := @gains_expansion g enumeration scope depth agrees id
      {s with queue := rest,visited := s.visited ++ [⟨id,depth,via⟩]}
    rw [after]
    have fresh : ∀ y ∈ found.map Prod.fst,y ∉ {x | x ∈ s.seen} := by
      intro y member
      obtain ⟨e,inside,rfl⟩ := List.mem_map.mp member
      exact (new e inside).1
    have stepped : ∀ y ∈ found.map Prod.fst,Edge g scope id y ∧ depth < scope.maxDepth := by
      intro y member
      obtain ⟨e,inside,rfl⟩ := List.mem_map.mp member
      exact ⟨(new e inside).2,by omega⟩
    have all : depth < scope.maxDepth → ∀ y,Edge g scope id y → y ∈ {x | x ∈ s.seen} ∨ y ∈ found.map Prod.fst := by
      intro _ y step
      have met := known y step
      rw [after] at met
      exact (Finset.mem_union.mp met).imp_right List.mem_toFinset.mp
    have visited := layered.visit apart fresh stepped all
    have names : (found.map fun e => (e.1,depth+1,some e.2)).map queueEntry = (found.map Prod.fst).map (·,depth+1) := by
      simp [queueEntry,Function.comp_def]
    have seen : {x | x ∈ s.seen ∪ (found.map Prod.fst).toFinset} = {x | x ∈ s.seen} ∪ {y | y ∈ found.map Prod.fst} := by
      ext x
      simp only [Finset.mem_union,List.mem_toFinset,Set.mem_ofPred_eq,Set.mem_union]
    simp only [Walking,List.map_append,List.map_singleton,names,seen]
    exact visited

theorem walkLoop_visits (front : s.queue = (id,depth,via)::rest) (room : s.visited.length < scope.maxVisits) (fuel : Nat) :
    walkLoop g enumeration scope (fuel+1) s = walkLoop g enumeration scope fuel (visitFront g enumeration scope id depth via rest s) := by
  rw [walkLoop,front]
  simp only [if_neg (Nat.not_le.mpr room)]
  unfold visitFront
  split
  · rfl
  · rfl

-- By induction on the visits that are left under the cap.
theorem walkLoop_searched (agrees : Agrees g) (room : Nat) (walking : Walking g scope startId s)
    (left_ : s.visited.length + room = scope.maxVisits) : ∃ result : WalkResult,
      (∀ fuel,room < fuel → walkLoop g enumeration scope fuel s = some result) ∧
      Searched (Edge g scope) startId scope.maxDepth scope.maxVisits (result.visited.map visitEntry) result.truncated := by
  have start : ∀ (n fuel : Nat),n < fuel → ∃ less,fuel = less + 1 ∧ n ≤ less := fun n fuel enough => ⟨fuel-1,by omega,by omega⟩
  induction room generalizing s with
  | zero =>
    cases front : s.queue with
    | nil =>
      rw [Walking,front] at walking
      refine ⟨⟨s.visited,false⟩,fun fuel enough => ?_,walking.exhausted (by rw [List.length_map]; omega)⟩
      obtain ⟨less,rfl,_⟩ := start 0 fuel enough
      rw [walkLoop,front]
    | cons head rest =>
      obtain ⟨id,depth,via⟩ := head
      rw [Walking,front] at walking
      refine ⟨⟨s.visited,true⟩,fun fuel enough => ?_,walking.cut (by rw [List.length_map]; omega)⟩
      obtain ⟨less,rfl,_⟩ := start 0 fuel enough
      have full : scope.maxVisits ≤ s.visited.length := by omega
      rw [walkLoop,front]
      exact if_pos full
  | succ room ih =>
    cases front : s.queue with
    | nil =>
      rw [Walking,front] at walking
      refine ⟨⟨s.visited,false⟩,fun fuel enough => ?_,walking.exhausted (by rw [List.length_map]; omega)⟩
      obtain ⟨less,rfl,_⟩ := start _ fuel enough
      rw [walkLoop,front]
    | cons head rest =>
      obtain ⟨id,depth,via⟩ := head
      have next := @visit_walking g enumeration scope id depth s startId via rest agrees walking front
      have visited := @visitFront_visited g enumeration scope id depth s via rest agrees
      obtain ⟨result,runs,searched⟩ := ih (s := visitFront g enumeration scope id depth via rest s) next (by
        rw [visited,List.length_append,List.length_singleton]
        omega)
      refine ⟨result,fun fuel enough => ?_,searched⟩
      obtain ⟨less,rfl,more⟩ := start _ fuel enough
      rw [walkLoop_visits front (by omega)]
      exact runs less more

theorem walk_searched (agrees : Agrees g) (enumeration : Enumeration) (scope : WalkScope) (startId : String) : ∃ result : WalkResult,
    (∀ fuel,scope.maxVisits < fuel → walk g enumeration scope fuel startId = some result) ∧
      Searched (Edge g scope) startId scope.maxDepth scope.maxVisits (result.visited.map visitEntry) result.truncated := by
  have seen : {x | x ∈ (insert startId ∅ : Finset String)} = {startId} := by
    ext x
    simp
  have begins : Walking g scope startId ⟨[],insert startId ∅,[(startId,0,none)]⟩ := by
    rw [Walking,seen]
    exact layered_start (Edge g scope) startId scope.maxDepth
  exact walkLoop_searched agrees scope.maxVisits begins (Nat.zero_add scope.maxVisits)

theorem walk_exact (calls : List Call) (enumeration : Enumeration) (scope : WalkScope) (startId : String) :
    (run step .new calls).poisoned = false ∧ ∃ result : WalkResult,
      (∀ fuel,scope.maxVisits < fuel → walk (run step .new calls).inner enumeration scope fuel startId = some result) ∧
      Searched (Edge (run step .new calls).inner scope) startId scope.maxDepth scope.maxVisits (result.visited.map visitEntry)
        result.truncated := by
  obtain ⟨calm,agrees⟩ := graph_index_agrees calls
  exact ⟨calm,walk_searched agrees enumeration scope startId⟩

end EvoCore.GraphWalk
