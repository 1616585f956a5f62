import Mathlib

namespace EvoCore.SessionWords
open scoped Computability

-- What one party sees of sessions that follow one another: each opens, carries any number of items
-- and closes.
inductive Mark where
  | opens | item | closes
deriving DecidableEq,Repr

def session : Language Mark := {[.opens]} * ({[.item]} : Language Mark)∗ * {[.closes]}
def sessions : Language Mark := session∗

-- False between two sessions, true within one.
def follow : Bool → Mark → Option Bool
  | false,.opens => some true
  | true,.item => some true
  | true,.closes => some false
  | _,_ => none

def scan (within : Bool) (marks : List Mark) : Option Bool := marks.foldlM follow within

variable {within : Bool} {marks rest : List Mark} {m : Mark}

theorem scan_append : scan within (marks ++ rest) = (scan within marks).bind (scan · rest) := List.foldlM_append

@[simp] theorem scan_snoc : scan within (marks ++ [m]) = (scan within marks).bind (follow · m) := by
  rw [scan_append]
  congr 1
  funext now
  simp [scan]

theorem scan_items (n : Nat) : scan true (List.replicate n .item) = some true := by
  induction n with
  | zero => rfl
  | succ n ih => simpa [scan,List.replicate_succ,follow] using ih

theorem session_shape : marks ∈ session ↔ ∃ n,marks = Mark.opens::List.replicate n Mark.item ++ [Mark.closes] := by
  constructor
  · intro member
    obtain ⟨front,inFront,last,closed,rfl⟩ := Language.mem_mul.mp member
    obtain ⟨first,opened,items,inner,rfl⟩ := Language.mem_mul.mp inFront
    obtain ⟨parts,rfl,each⟩ := Language.mem_kstar.mp inner
    cases Set.mem_singleton_iff.mp closed
    cases Set.mem_singleton_iff.mp opened
    refine ⟨parts.length,?_⟩
    have same : parts = List.replicate parts.length [.item] := List.eq_replicate_iff.mpr ⟨rfl,each⟩
    rw [same]
    simp
  · rintro ⟨n,rfl⟩
    refine Language.append_mem_mul (a := Mark.opens::List.replicate n .item) ?_ rfl
    refine Language.append_mem_mul (a := [Mark.opens]) rfl ?_
    exact Language.mem_kstar.mpr ⟨List.replicate n [.item],by simp,fun y member => (List.eq_of_mem_replicate member)⟩

theorem scan_session (member : marks ∈ session) : scan false marks = some false := by
  obtain ⟨n,rfl⟩ := session_shape.mp member
  rw [scan_snoc]
  have inside : scan false (.opens::List.replicate n .item) = some true := scan_items n
  rw [inside]
  rfl

theorem scan_sessions (member : marks ∈ sessions) : scan false marks = some false := by
  obtain ⟨parts,rfl,each⟩ := Language.mem_kstar.mp member
  induction parts with
  | nil => rfl
  | cons first rest ih =>
    rw [List.flatten_cons,scan_append,scan_session (each first List.mem_cons_self)]
    have later : ∀ y ∈ rest,y ∈ session := fun y member => each y (List.mem_cons_of_mem _ member)
    exact ih later (Language.mem_kstar.mpr ⟨rest,rfl,later⟩)

theorem sessions_snoc (done : marks ∈ sessions) (one : rest ∈ session) : marks ++ rest ∈ sessions := by
  obtain ⟨parts,rfl,each⟩ := Language.mem_kstar.mp done
  refine Language.mem_kstar.mpr ⟨parts ++ [rest],by simp,?_⟩
  intro y member
  rcases List.mem_append.mp member with old | new
  · exact each y old
  · rwa [List.mem_singleton.mp new]

theorem scan_words (shown : scan false marks = some within) : ∃ done tail,marks = done ++ tail ∧ done ∈ sessions ∧
    if within then ∃ n,tail = .opens::List.replicate n .item else tail = [] := by
  induction marks using List.reverseRecOn generalizing within with
  | nil =>
    cases Option.some.inj shown
    exact ⟨[],[],rfl,Language.nil_mem_kstar _,rfl⟩
  | append_singleton before m ih =>
    rw [scan_snoc] at shown
    obtain ⟨now,scanned,next⟩ := Option.bind_eq_some_iff.mp shown
    obtain ⟨done,tail,rfl,finished,shape⟩ := ih scanned
    cases now with
    | false =>
      subst shape
      cases m with
      | opens =>
        cases Option.some.inj next
        exact ⟨done,[.opens],by simp,finished,0,rfl⟩
      | item => cases next
      | closes => cases next
    | true =>
      obtain ⟨n,rfl⟩ := shape
      cases m with
      | opens => cases next
      | item =>
        cases Option.some.inj next
        exact ⟨done,Mark.opens::List.replicate (n+1) Mark.item,by simp [List.replicate_succ'],finished,n+1,rfl⟩
      | closes =>
        cases Option.some.inj next
        exact ⟨done ++ (Mark.opens::List.replicate n Mark.item ++ [Mark.closes]),[],by simp,
          sessions_snoc finished (session_shape.mpr ⟨n,rfl⟩),rfl⟩

theorem scan_prefix : (scan false marks).isSome ↔ ∃ rest,marks ++ rest ∈ sessions := by
  constructor
  · intro going
    obtain ⟨within,shown⟩ := Option.isSome_iff_exists.mp going
    obtain ⟨done,tail,rfl,finished,shape⟩ := scan_words shown
    cases within with
    | false =>
      subst shape
      exact ⟨[],by simpa using finished⟩
    | true =>
      obtain ⟨n,rfl⟩ := shape
      refine ⟨[.closes],?_⟩
      rw [List.append_assoc]
      exact sessions_snoc finished (session_shape.mpr ⟨n,rfl⟩)
  · intro extended
    obtain ⟨rest,member⟩ := extended
    have finished := scan_sessions member
    rw [scan_append] at finished
    obtain ⟨now,shown,_⟩ := Option.bind_eq_some_iff.mp finished
    exact Option.isSome_iff_exists.mpr ⟨now,shown⟩

end EvoCore.SessionWords
