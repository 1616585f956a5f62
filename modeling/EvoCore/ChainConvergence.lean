import EvoCore.ChainForks
import EvoCore.GreedyPaths
import EvoCore.HonestSigners

namespace EvoCore.ChainConvergence
open External DomainEntries IdealCrates ChainAppend ChainSteps ChainReplay ChainForks HonestSigners HashLinks GreedyPaths Runs

variable {crates : DomainCrates} {c : DomainChain} {d : Delivery} {w : DomainWitness} {past : List DomainWitness} {j k : Nat}

-- From genesis, at every node the child that is least under linearisation_cmp.
def LeastPath (crates : DomainCrates) (delivered entries : List DomainWitness) : Prop :=
  Greedy (canonicalHashB64 crates) DomainWitness.prevHashB64 (fun a b => linearisationCmp a b = .lt)
    {w | w ∈ delivered} (zeroPrevHashB64 crates) entries

theorem first_asymm (a b : DomainWitness) (first : linearisationCmp a b = .lt) : ¬ linearisationCmp b a = .lt := by
  intro second
  rw [← linearisation_asymm,first] at second
  cases second

theorem leastPath_unique (left : LeastPath crates delivered entries) (right : LeastPath crates delivered others) :
    entries = others := greedy_unique first_asymm left right

theorem leastPath_mem (least : LeastPath crates delivered entries) (member : w ∈ entries) : w ∈ delivered := by
  have found : w ∈ {x | x ∈ delivered} := greedy_mem least member
  exact found

def observe (crates : DomainCrates) (s : DomainChain × List DomainWitness) (d : Delivery) :
    DomainChain × List DomainWitness := (deliver crates s.1 d,s.2++[d.2])

theorem observe_run (s : DomainChain × List DomainWitness) (deliveries : List Delivery) :
    run (observe crates) s deliveries = (run (deliver crates) s.1 deliveries,s.2++deliveries.map Prod.snd) := by
  induction deliveries generalizing s with
  | nil => simp
  | cons d rest ih => simp [ih,observe]

-- An order of delivery in which a witness comes after its parent, or again. Only
-- the first one delivered has no parent.
def ParentFirst (crates : DomainCrates) (order : List DomainWitness) : Prop :=
  ∀ before w after,order = before++w::after → w ∈ before ∨
    (before = [] ∧ w.prevHashB64 = zeroPrevHashB64 crates) ∨ ∃ p ∈ before,canonicalHashB64 crates p = w.prevHashB64

def SiblingsApart (tree : List DomainWitness) : Prop :=
  ∀ a ∈ tree,∀ b ∈ tree,a.prevHashB64 = b.prevHashB64 → linearisationCmp a b = .eq → a = b

theorem times_apart {tree : List DomainWitness} (different : (tree.map DomainWitness.tsNs).Nodup) : SiblingsApart tree := by
  intro a memberA b memberB _ tied
  exact List.inj_on_of_nodup_map different memberA memberB (linearisation_eq.mp tied).1

-- The rule puts w behind the first k entries: its parent is the last of them and
-- nothing stands there, or something that comes later.
structure Due (crates : DomainCrates) (c : DomainChain) (w : DomainWitness) (k : Nat) : Prop where
  absent : w ∉ c.entries
  bound : k ≤ c.entries.length
  named : w.prevHashB64 = headOf crates (c.entries.take k)
  first : ∀ e,c.entries[k]? = some e → linearisationCmp w e = .lt

def Accepts (crates : DomainCrates) (c : DomainChain) (d : Delivery) : Prop :=
  ∀ k,Due crates c d.2 k → Ready crates c d k

theorem enters_due (free : CollisionFree crates) (anchored : Anchored crates c) (enters : Enters crates c d k) :
    Due crates c d.2 k := by
  obtain ⟨placed,ready⟩ := enters
  obtain ⟨bound,named⟩ := placement_prev anchored placed
  refine ⟨fun member => ready.fresh ⟨d.2,member,rfl⟩,bound,named,?_⟩
  intro e standing
  obtain ⟨inside,_⟩ := List.getElem?_eq_some_iff.mp standing
  exact ((placement_fork free anchored ready.fresh ⟨inside,named⟩ standing).mp placed).2

theorem due_enters (free : CollisionFree crates) (anchored : Anchored crates c) (due : Due crates c d.2 k)
    (ready : Ready crates c d k) (rooted : k = 0 → c.entries = []) : Enters crates c d k := by
  refine ⟨?_,ready⟩
  by_cases whole : k = c.entries.length
  · subst whole
    apply placement_extends
    rw [due.named,List.take_length,anchored.head]
  · have inside : k < c.entries.length := Nat.lt_of_le_of_ne due.bound whole
    have later : 0 < k := by
      rw [Nat.pos_iff_ne_zero]
      intro zero
      simp [rooted zero] at inside
    have standing : c.entries[k]? = some c.entries[k] := List.getElem?_eq_getElem inside
    refine (placement_fork free anchored ready.fresh ⟨inside,due.named⟩ standing).mpr ⟨.inl ⟨later,?_⟩,due.first _ standing⟩
    exact admitted_contains ready.admitted later

theorem due_once (free : CollisionFree crates) (anchored : Anchored crates c) (one : Due crates c w j)
    (two : Due crates c w k) : j = k := fork_unique free anchored one.bound one.named two.bound two.named

-- What the order of delivery promises about the next witness.
structure Causal (crates : DomainCrates) (past : List DomainWitness) (w : DomainWitness) : Prop where
  closed : ∀ y ∈ past,y.prevHashB64 = zeroPrevHashB64 crates ∨ ∃ p ∈ past,canonicalHashB64 crates p = y.prevHashB64
  next : w ∈ past ∨ (past = [] ∧ w.prevHashB64 = zeroPrevHashB64 crates) ∨
    ∃ p ∈ past,canonicalHashB64 crates p = w.prevHashB64
  apart : ∀ y ∈ past,y.prevHashB64 = w.prevHashB64 → linearisationCmp y w = .eq → y = w

theorem causal_leaf (free : CollisionFree crates) (causal : Causal crates past w) (unseen : w ∉ past) :
    ∀ y ∈ insert w {x | x ∈ past},y.prevHashB64 ≠ canonicalHashB64 crates w := by
  have parentless : ∀ y : DomainWitness,(∃ p ∈ past,canonicalHashB64 crates p = y.prevHashB64) →
      y.prevHashB64 ≠ canonicalHashB64 crates w := by
    intro y parent named
    obtain ⟨p,member,hash⟩ := parent
    rw [free.injective (hash.trans named)] at member
    exact unseen member
  intro y member
  cases member with
  | inl same =>
    subst same
    rcases causal.next with seen | ⟨_,zero⟩ | parent
    · exact absurd seen unseen
    · rw [zero]; exact (free.fresh y).symm
    · exact parentless y parent
  | inr older =>
    cases causal.closed y older with
    | inl zero => rw [zero]; exact (free.fresh w).symm
    | inr parent => exact parentless y parent

theorem causal_root (free : CollisionFree crates) (causal : Causal crates past w) (unseen : w ∉ past)
    (zero : w.prevHashB64 = zeroPrevHashB64 crates) : past = [] := by
  rcases causal.next with seen | ⟨empty,_⟩ | ⟨p,_,hash⟩
  · exact absurd seen unseen
  · exact empty
  · exact absurd (hash.trans zero) (free.fresh p)

theorem seen_not_due (least : LeastPath crates past c.entries) (seen : w ∈ past) : ¬ Due crates c w k := by
  intro due
  cases standing : c.entries[k]? with
  | some e =>
    cases greedy_standing least seen standing due.named with
    | inl same =>
      rw [same] at due
      exact due.absent (List.mem_of_getElem? standing)
    | inr later => exact first_asymm _ _ (due.first e standing) later
  | none =>
    have whole : k = c.entries.length := Nat.le_antisymm due.bound (List.getElem?_eq_none_iff.mp standing)
    have named := due.named
    rw [whole,List.take_length] at named
    exact greedy_whole least seen named

theorem delivered_insert : {x | x ∈ past++[w]} = insert w {x | x ∈ past} := by
  ext x
  simp [or_comm]

theorem due_turns (free : CollisionFree crates) (anchored : Anchored crates c) (causal : Causal crates past w)
    (least : LeastPath crates past c.entries) (unseen : w ∉ past) (due : Due crates c w k) :
    LeastPath crates (past++[w]) (c.entries.take k++[w]) := by
  unfold LeastPath
  rw [delivered_insert]
  apply greedy_turns least due.bound due.named
  · intro j earlier named
    have same := fork_unique free anchored (by have := due.bound; omega) named due.bound due.named
    omega
  · intro y member sibling
    have parent : y.prevHashB64 = headOf crates (c.entries.take k) := sibling.trans due.named
    cases standing : c.entries[k]? with
    | some e =>
      right
      cases greedy_standing least member standing parent with
      | inl same => rw [same]; exact due.first e standing
      | inr later => exact linearisation_trans (due.first e standing) later
    | none =>
      rw [List.take_of_length_le (List.getElem?_eq_none_iff.mp standing)] at parent
      exact absurd parent (greedy_whole least member)
  · exact causal_leaf free causal unseen

theorem not_due_stays (causal : Causal crates past w) (least : LeastPath crates past c.entries) (unseen : w ∉ past)
    (later : ∀ k,¬ Due crates c w k) : LeastPath crates (past++[w]) c.entries := by
  have absent : w ∉ c.entries := fun member => unseen (leastPath_mem least member)
  unfold LeastPath
  rw [delivered_insert]
  apply greedy_stays least
  · intro k e standing named
    obtain ⟨inside,_⟩ := List.getElem?_eq_some_iff.mp standing
    have member : e ∈ c.entries := List.mem_of_getElem? standing
    cases order : linearisationCmp e w with
    | lt => rfl
    | eq =>
      have sibling : e.prevHashB64 = w.prevHashB64 := by
        rw [named,(List.getElem?_eq_some_iff.mp standing).2.symm]
        exact linked_prev (greedy_linked least) inside
      rw [causal.apart e (leastPath_mem least member) sibling order] at member
      exact absurd member absent
    | gt =>
      refine absurd ⟨absent,Nat.le_of_lt inside,named,?_⟩ (later k)
      intro other there
      rw [standing] at there
      cases Option.some.inj there
      exact linearisation_asymm.mp order
  · intro named
    refine later c.entries.length ⟨absent,Nat.le_refl _,by rw [named,List.take_length]; rfl,?_⟩
    intro e standing
    simp at standing

-- One delivery keeps the chain on the least path exactly when a due witness passes
-- the checks.
theorem observe_leastPath (free : CollisionFree crates) (anchored : Anchored crates c) (causal : Causal crates past d.2)
    (least : LeastPath crates past c.entries) :
    LeastPath crates (past++[d.2]) (deliver crates c d).entries ↔ Accepts crates c d := by
  by_cases seen : d.2 ∈ past
  · have outside : ∀ k,¬ Enters crates c d k := fun k enters => seen_not_due least seen (enters_due free anchored enters)
    obtain ⟨log,same⟩ := deliver_stays outside
    have unchanged : {x | x ∈ past++[d.2]} = {x | x ∈ past} := by
      ext x
      simp only [List.mem_append,List.mem_singleton,Set.mem_ofPred_eq]
      exact ⟨fun member => member.elim id fun last => last ▸ seen,.inl⟩
    refine iff_of_true ?_ fun k due => absurd due (seen_not_due least seen)
    unfold LeastPath
    rw [same,unchanged]
    exact least
  · by_cases due : ∃ k,Due crates c d.2 k
    · obtain ⟨k,due⟩ := due
      have rooted : k = 0 → c.entries = [] := by
        intro zero
        have empty := causal_root free causal seen (by rw [due.named,zero]; rfl)
        cases entries : c.entries with
        | nil => rfl
        | cons e rest =>
          have member := leastPath_mem least (show e ∈ c.entries by rw [entries]; exact List.mem_cons_self ..)
          rw [empty] at member
          cases member
      have turned := due_turns free anchored causal least seen due
      constructor
      · intro kept j other
        cases due_once free anchored due other
        by_contra unready
        have outside : ∀ j,¬ Enters crates c d j := by
          intro j enters
          cases due_once free anchored due (enters_due free anchored enters)
          exact unready enters.2
        obtain ⟨log,same⟩ := deliver_stays outside
        rw [same] at kept
        apply due.absent
        rw [show c.entries = c.entries.take k++[d.2] from leastPath_unique kept turned]
        simp
      · intro accepts
        have enters := due_enters free anchored due (accepts k due) rooted
        rw [(deliver_enters enters).1]
        exact turned
    · have later : ∀ k,¬ Due crates c d.2 k := fun k found => due ⟨k,found⟩
      have outside : ∀ k,¬ Enters crates c d k := fun k enters => later k (enters_due free anchored enters)
      obtain ⟨log,same⟩ := deliver_stays outside
      refine iff_of_true ?_ fun k found => absurd found (later k)
      have kept := not_due_stays causal least seen later
      rw [same]
      exact kept

theorem parentFirst_causal (first : ParentFirst crates order) (apart : SiblingsApart order)
    (split : order = past++w::after) : Causal crates past w := by
  refine ⟨?_,first past w after split,?_⟩
  · intro y member
    induction past using List.reverseRecOn generalizing w after with
    | nil => cases member
    | append_singleton before x ih =>
      have shorter : order = before++x::(w::after) := by simp [split]
      have older : y ∈ before → y.prevHashB64 = zeroPrevHashB64 crates ∨
          ∃ p ∈ before++[x],canonicalHashB64 crates p = y.prevHashB64 := by
        intro earlier
        cases ih shorter earlier with
        | inl zero => exact .inl zero
        | inr parent =>
          obtain ⟨p,there,hash⟩ := parent
          exact .inr ⟨p,List.mem_append_left _ there,hash⟩
      cases List.mem_append.mp member with
      | inl earlier => exact older earlier
      | inr last =>
        cases List.mem_singleton.mp last
        rcases first before y _ shorter with again | ⟨_,zero⟩ | ⟨p,there,hash⟩
        · exact older again
        · exact .inl zero
        · exact .inr ⟨p,List.mem_append_left _ there,hash⟩
  · intro y member sibling tied
    exact apart y (by simp [split,member]) w (by simp [split]) sibling tied

theorem parentFirst_nil : ParentFirst crates [] := by
  intro before w after shape
  simp at shape

theorem parentFirst_grows (first : ParentFirst crates order) (next : w ∈ order ∨
    (order = [] ∧ w.prevHashB64 = zeroPrevHashB64 crates) ∨ ∃ p ∈ order,canonicalHashB64 crates p = w.prevHashB64) :
    ParentFirst crates (order++[w]) := by
  intro before v after shape
  rcases List.eq_nil_or_concat after with empty | ⟨rest,last,more⟩
  · subst empty
    obtain ⟨same,last⟩ := List.append_inj' shape rfl
    cases List.cons.inj last with
    | intro here _ => rw [← same,← here]; exact next
  · subst more
    have longer : order++[w] = (before++v::rest)++[last] := by simpa using shape
    exact first before v rest (List.append_inj' longer rfl).1

theorem founding_accepted (documented : Documented crates.toCrates) :
    Accepts crates (new crates .memory log) (.done,founding crates) := by
  intro k due
  have start : k = 0 := Nat.le_zero.mp due.bound
  subst start
  refine ⟨by simp [Known,new],selfAdmission_admitted documented,fun _ => ⟨admission_readable documented rfl,.inl rfl⟩⟩

theorem founding_order : ParentFirst crates [founding crates] :=
  parentFirst_grows parentFirst_nil (.inr (.inl ⟨rfl,rfl⟩))

theorem observe_exact (free : CollisionFree crates) (persistence : DomainChainPersistence) (log : ChainLog)
    (order : ParentFirst crates (deliveries.map Prod.snd))
    (apart : SiblingsApart (deliveries.map Prod.snd)) :
    Throughout (observe crates) (fun s => LeastPath crates s.2 s.1.entries) (new crates persistence log,[]) deliveries ↔
      Guarded (observe crates) (fun s d => Accepts crates s.1 d) (new crates persistence log,[]) deliveries := by
  have start : LeastPath crates [] (new crates persistence log).entries := by
    intro y member
    cases member
  refine throughout_under (fun s d => Anchored crates s.1 ∧ Causal crates s.2 d.2) ?_ start ?_
  · intro s d least sides
    exact observe_leastPath free sides.1 sides.2 least
  · apply guarded_prefixes
    intro before d after shape
    rw [observe_run]
    have split : deliveries.map Prod.snd = ([]++before.map Prod.snd)++d.2::after.map Prod.snd := by simp [shape]
    exact ⟨run_anchored,parentFirst_causal order apart split⟩

-- The chain is on the least path of what has come so far, after every delivery,
-- exactly when every due witness passes; and that path is the only one.
theorem least_path_exactly (free : CollisionFree crates) (persistence : DomainChainPersistence) (log : ChainLog)
    (deliveries : List Delivery) (order : ParentFirst crates (deliveries.map Prod.snd))
    (apart : SiblingsApart (deliveries.map Prod.snd)) :
    (Throughout (observe crates) (fun s => LeastPath crates s.2 s.1.entries) (new crates persistence log,[]) deliveries ↔
      Guarded (observe crates) (fun s d => Accepts crates s.1 d) (new crates persistence log,[]) deliveries) ∧
    (Guarded (observe crates) (fun s d => Accepts crates s.1 d) (new crates persistence log,[]) deliveries →
      ∀ path,LeastPath crates (deliveries.map Prod.snd) path ↔
        path = (run (deliver crates) (new crates persistence log) deliveries).entries) := by
  have exactly := observe_exact free persistence log order apart
  refine ⟨exactly,fun accepted path => ?_⟩
  have final := throughout_final (exactly.mpr accepted)
  rw [observe_run] at final
  constructor
  · intro least
    exact leastPath_unique least final
  · intro same
    rw [same]
    exact final

section Overtaken

theorem acts_apart : SiblingsApart (acts crates) := by
  apply times_apart
  simp [acts,founding,selfAdmission,lateAct,nextAct,earlyAct,gesture,sign]

theorem acts_accepted (documented : Documented crates.toCrates) (free : CollisionFree crates)
    (gestured : Gestured crates (acts crates) c) (memory : c.persistence = .memory)
    (acted : w ∈ [lateAct crates,nextAct crates,earlyAct crates]) : Accepts crates c (.done,w) := by
  intro k due
  obtain ⟨j,rfl⟩ := gesture_position free (acts_gesture acted) due.named
  refine ⟨?_,?_,fun _ => ⟨⟨_,(acts_gesture acted).quiet ∅⟩,.inl memory⟩⟩
  · intro known
    obtain ⟨e,standing,same⟩ := known
    have member := gestured_member (by simp [acts]) gestured e standing
    refine due.absent ((?_ : e = w) ▸ standing)
    simp only [acts,List.mem_cons,List.not_mem_nil,or_false] at member acted
    rcases member with rfl | rfl | rfl | rfl <;> rcases acted with rfl | rfl | rfl <;>
      simp_all [founding,selfAdmission,lateAct,nextAct,earlyAct,gesture,sign]
  · rw [gestured.keys]
    exact acts_admitted documented acted

theorem acts_guarded (documented : Documented crates.toCrates) (free : CollisionFree crates)
    (acted : ∀ w ∈ rest,w ∈ [lateAct crates,nextAct crates,earlyAct crates]) :
    Guarded (observe crates) (fun s d => Accepts crates s.1 d) (new crates .memory none,[])
      ((founding crates::rest).map fun w => (.done,w)) := by
  refine ⟨founding_accepted documented,?_⟩
  simp only [observe,deliver_result (founding_in_memory documented)]
  have keeps : ∀ (s : DomainChain × List DomainWitness) (d : Delivery),
      (Gestured crates (acts crates) s.1 ∧ s.1.persistence = .memory) →
      (d.1 = .done ∧ d.2 ∈ [lateAct crates,nextAct crates,earlyAct crates]) →
      Gestured crates (acts crates) (observe crates s d).1 ∧ (observe crates s d).1.persistence = .memory := by
    intro s d kept next
    exact ⟨gestured_deliver documented free kept.1 (acts_gesture next.2),(tryAppend_persistence crates d.1 s.1 d.2).trans kept.2⟩
  refine guarded_carries keeps ?_ ⟨foundedChain_gestured,rfl⟩ ?_
  · intro s d kept next
    rw [show d = (.done,d.2) from Prod.ext next.1 rfl]
    exact acts_accepted documented free kept.1 kept.2 next.2
  · apply guarded_prefixes
    intro before d after shape
    have member : d ∈ rest.map fun w => ((.done,w) : Delivery) := by rw [shape]; simp
    obtain ⟨w,there,rfl⟩ := List.mem_map.mp member
    exact ⟨rfl,acted w there⟩

theorem acts_least (free : CollisionFree crates) (same : ∀ w,w ∈ order ↔ w ∈ acts crates) :
    LeastPath crates order [founding crates,earlyAct crates] := by
  have items : ∀ y : DomainWitness,y ∈ order → y = founding crates ∨ y = lateAct crates ∨ y = nextAct crates ∨ y = earlyAct crates := by
    intro y member
    simpa [acts] using (same y).mp member
  have earlier : linearisationCmp (earlyAct crates) (lateAct crates) = .lt := earlier_first (show (50 : UInt64) < 100 by decide)
  refine ⟨(same _).mpr (by simp [acts]),rfl,?_,(same _).mpr (by simp [acts]),rfl,?_,?_⟩
  · intro y member root
    rcases items y member with rfl | rfl | rfl | rfl
    · exact .inl rfl
    · exact absurd root (free.fresh _)
    · exact absurd root (free.fresh _)
    · exact absurd root (free.fresh _)
  · intro y member sibling
    rcases items y member with rfl | rfl | rfl | rfl
    · exact absurd sibling.symm (free.fresh _)
    · exact .inr earlier
    · exact absurd (congrArg DomainWitness.tsNs (free.injective sibling)) (show (100 : UInt64) ≠ 1 by decide)
    · exact .inl rfl
  · intro y member child
    rcases items y member with rfl | rfl | rfl | rfl
    · exact free.fresh _ child.symm
    · exact absurd (congrArg DomainWitness.tsNs (free.injective child)) (show (1 : UInt64) ≠ 50 by decide)
    · exact absurd (congrArg DomainWitness.tsNs (free.injective child)) (show (100 : UInt64) ≠ 50 by decide)
    · exact absurd (congrArg DomainWitness.tsNs (free.injective child)) (show (1 : UInt64) ≠ 50 by decide)

theorem acts_order : ParentFirst crates (acts crates) ∧
    ParentFirst crates [founding crates,earlyAct crates,lateAct crates,nextAct crates] := by
  have late : ParentFirst crates ([founding crates]++[lateAct crates]) :=
    parentFirst_grows founding_order (.inr (.inr ⟨founding crates,by simp,rfl⟩))
  have next : ParentFirst crates ([founding crates,lateAct crates]++[nextAct crates]) :=
    parentFirst_grows late (.inr (.inr ⟨lateAct crates,by simp,rfl⟩))
  have early : ParentFirst crates ([founding crates]++[earlyAct crates]) :=
    parentFirst_grows founding_order (.inr (.inr ⟨founding crates,by simp,rfl⟩))
  have late_ : ParentFirst crates ([founding crates,earlyAct crates]++[lateAct crates]) :=
    parentFirst_grows early (.inr (.inr ⟨founding crates,by simp,rfl⟩))
  exact ⟨parentFirst_grows next (.inr (.inr ⟨founding crates,by simp,rfl⟩)),
    parentFirst_grows late_ (.inr (.inr ⟨lateAct crates,by simp,rfl⟩))⟩

-- Both chains end with the early act, at every step on the least path of what has come by then.
def EndsEarly (order : List DomainWitness) : Prop :=
  ParentFirst domainLibrary order ∧ SiblingsApart order ∧
    Throughout (observe domainLibrary) (fun s => LeastPath domainLibrary s.2 s.1.entries)
      (new domainLibrary .memory none,[]) (order.map fun w => (.done,w)) ∧
    (run (deliver domainLibrary) (new domainLibrary .memory none) (order.map fun w => (.done,w))).entries =
      [founding domainLibrary,earlyAct domainLibrary]

-- Whether the late branch is there first or comes last.
theorem overtaken_least : EndsEarly (acts domainLibrary) ∧
    EndsEarly [founding domainLibrary,earlyAct domainLibrary,lateAct domainLibrary,nextAct domainLibrary] := by
  have both : ∀ rest,rest.Perm [lateAct domainLibrary,nextAct domainLibrary,earlyAct domainLibrary] →
      ParentFirst domainLibrary (founding domainLibrary::rest) → EndsEarly (founding domainLibrary::rest) := by
    intro rest shuffled order
    have same : ∀ w,w ∈ founding domainLibrary::rest ↔ w ∈ acts domainLibrary := fun w => (shuffled.cons _).mem_iff
    have apart : SiblingsApart (founding domainLibrary::rest) := by
      intro a memberA b memberB
      exact acts_apart a ((same a).mp memberA) b ((same b).mp memberB)
    have delivered : ((founding domainLibrary::rest).map fun w => ((.done,w) : Delivery)).map Prod.snd =
        founding domainLibrary::rest := by simp
    have exactly := least_path_exactly domainLibrary_free .memory none
      ((founding domainLibrary::rest).map fun w => (.done,w)) (delivered.symm ▸ order) (delivered.symm ▸ apart)
    rw [delivered] at exactly
    have accepted := acts_guarded domainLibrary_documented domainLibrary_free fun w member => shuffled.mem_iff.mp member
    exact ⟨order,apart,exactly.1.mpr accepted,((exactly.2 accepted _).mp (acts_least domainLibrary_free same)).symm⟩
  have turned : ([earlyAct domainLibrary]++[lateAct domainLibrary,nextAct domainLibrary]).Perm
      ([lateAct domainLibrary,nextAct domainLibrary]++[earlyAct domainLibrary]) := List.perm_append_comm
  exact ⟨both _ (.refl _) acts_order.1,both _ turned acts_order.2⟩

end Overtaken

-- Every witness of the tree verifies on its own path to genesis.
def SignedTree (crates : DomainCrates) (tree : List DomainWitness) : Prop :=
  ∀ w ∈ tree,∃ path : List DomainWitness,(∀ e ∈ path,e ∈ tree) ∧ Replays crates (path++[w])

-- The founder changes its own key and, with the old one, signs an earlier sibling of
-- that change. The resolver holds the new key, so the sibling that should win is refused.
section RotatedKey
variable (crates)

def keyRotation : DomainWitness :=
  sign crates founder ⟨"w1"⟩ (canonicalHashB64 crates (founding crates)) 100 "founder" [] (admission crates "founder" guest)
def heldBack : DomainWitness := gesture crates "w2" 50

def rotatedChain : DomainChain :=
  ⟨[founding crates,keyRotation crates],canonicalHashB64 crates (keyRotation crates),
    (founderKeys crates).insert "founder" (crates.verifyingKey guest),.memory,none⟩

variable {crates}

theorem keyRotation_applied (documented : Documented crates.toCrates) :
    tryAppend crates io (foundedChain crates .memory none) (keyRotation crates) = (.ok .applied,rotatedChain crates) := by
  refine extends_applied ?_ rfl ?_ rfl (admission_updates documented rfl)
  · simp [Known,foundedChain,founding,selfAdmission,keyRotation,sign]
  · exact signed_admitted documented (by simp [foundedChain,founderKeys])

theorem heldBack_refused (documented : Documented crates.toCrates) (ideal : Ideal crates.toCrates)
    (other : crates.verifyingKey guest ≠ crates.verifyingKey founder) :
    ¬ Admitted crates (rotatedChain crates).publicKeys (heldBack crates) (k+1) := by
  have resolved : resolveVerifyingKey crates (heldBack crates) false (rotatedChain crates).publicKeys =
      .ok (crates.verifyingKey guest) := by
    simp [resolveVerifyingKey,heldBack,gesture,rotatedChain,sign]
  have refused : verify crates (heldBack crates) (crates.verifyingKey guest) = .error (.badSignature "w2") :=
    verify_sign_other crates documented ideal other
  have later : (k+1 == 0) = false := rfl
  simp [Admitted,verified,later,resolved,refused]

theorem heldBack_stays (documented : Documented crates.toCrates) (ideal : Ideal crates.toCrates)
    (free : CollisionFree crates) (other : crates.verifyingKey guest ≠ crates.verifyingKey founder)
    (anchored : Anchored crates (rotatedChain crates)) :
    (deliver crates (rotatedChain crates) (.done,heldBack crates)).entries = [founding crates,keyRotation crates] := by
  have outside : ∀ k,¬ Enters crates (rotatedChain crates) (.done,heldBack crates) k := by
    intro k enters
    have fork : ForksAt crates (rotatedChain crates) (heldBack crates) 1 := ⟨by simp [rotatedChain],rfl⟩
    have position := placement_elsewhere free anchored enters.1 fork
    subst position
    exact heldBack_refused documented ideal other enters.2.admitted
  obtain ⟨log,same⟩ := deliver_stays outside
  rw [same]
  rfl

theorem rotated_tree_signed (documented : Documented crates.toCrates) :
    SignedTree crates [founding crates,keyRotation crates,heldBack crates] := by
  have root : Replays crates ([]++[founding crates]) := founding_replays documented
  have rotated := (second_replays documented (w := keyRotation crates) rfl (admission_updates documented rfl)).1
  have held := (second_replays documented (w := heldBack crates) rfl rfl).1
  intro w member
  simp only [List.mem_cons,List.not_mem_nil,or_false] at member
  rcases member with rfl | rfl | rfl
  · exact ⟨[],by simp,root⟩
  · exact ⟨[founding crates],by simp,rotated⟩
  · exact ⟨[founding crates],by simp,held⟩

theorem rotated_order : ParentFirst crates [founding crates,keyRotation crates,heldBack crates] := by
  have two : ParentFirst crates ([founding crates]++[keyRotation crates]) :=
    parentFirst_grows founding_order (.inr (.inr ⟨founding crates,by simp,rfl⟩))
  exact parentFirst_grows two (.inr (.inr ⟨founding crates,by simp,rfl⟩))

theorem rotated_apart : SiblingsApart [founding crates,keyRotation crates,heldBack crates] := by
  apply times_apart
  simp [founding,selfAdmission,keyRotation,heldBack,gesture,sign]

theorem heldBack_missing (documented : Documented crates.toCrates) (ideal : Ideal crates.toCrates)
    (free : CollisionFree crates) (other : crates.verifyingKey guest ≠ crates.verifyingKey founder) :
    ¬ LeastPath crates [founding crates,keyRotation crates,heldBack crates] (run (deliver crates) (new crates .memory none)
      [(.done,founding crates),(.done,keyRotation crates),(.done,heldBack crates)]).entries := by
  have anchored : Anchored crates (run (deliver crates) (new crates .memory none)
      [(.done,founding crates),(.done,keyRotation crates)]) := run_anchored
  simp only [run_cons,run_nil] at anchored ⊢
  rw [deliver_result (founding_in_memory documented),deliver_result (keyRotation_applied documented)] at anchored ⊢
  rw [heldBack_stays documented ideal free other anchored]
  intro least
  have first : linearisationCmp (heldBack crates) (keyRotation crates) = .lt := earlier_first (show (50 : UInt64) < 100 by decide)
  have member : heldBack crates ∈ {w | w ∈ [founding crates,keyRotation crates,heldBack crates]} := by simp
  cases greedy_standing least member (show [founding crates,keyRotation crates][1]? = some (keyRotation crates) from rfl) rfl with
  | inl same => exact absurd (congrArg DomainWitness.tsNs same) (show (50 : UInt64) ≠ 100 by decide)
  | inr later => exact first_asymm _ _ first later

theorem rotated_breaks (documented : Documented crates.toCrates) (ideal : Ideal crates.toCrates)
    (free : CollisionFree crates) (other : crates.verifyingKey guest ≠ crates.verifyingKey founder)
    (always : ∀ persistence log (deliveries : List Delivery),ParentFirst crates (deliveries.map Prod.snd) →
      SiblingsApart (deliveries.map Prod.snd) → SignedTree crates (deliveries.map Prod.snd) →
      LeastPath crates (deliveries.map Prod.snd) (run (deliver crates) (new crates persistence log) deliveries).entries) :
    False := by
  have least := always .memory none [(.done,founding crates),(.done,keyRotation crates),(.done,heldBack crates)]
    rotated_order rotated_apart (rotated_tree_signed documented)
  exact heldBack_missing documented ideal free other least

theorem rotated_key_diverges : ¬ ∀ (crates : DomainCrates),
    Documented crates.toCrates → Ideal crates.toCrates → CollisionFree crates →
    ∀ persistence log (deliveries : List Delivery),ParentFirst crates (deliveries.map Prod.snd) →
      SiblingsApart (deliveries.map Prod.snd) → SignedTree crates (deliveries.map Prod.snd) →
      LeastPath crates (deliveries.map Prod.snd) (run (deliver crates) (new crates persistence log) deliveries).entries := by
  intro always
  have different : domainLibrary.verifyingKey guest ≠ domainLibrary.verifyingKey founder := by
    rw [domainLibrary_key,domainLibrary_key]
    decide
  exact rotated_breaks domainLibrary_documented domainLibrary_ideal domainLibrary_free different
    (always domainLibrary domainLibrary_documented domainLibrary_ideal domainLibrary_free)

end RotatedKey

end EvoCore.ChainConvergence
