import EvoCore.ChainConvergence
import EvoCore.ChainHistory
import EvoCore.ProjectionCache

namespace EvoCore.PartitionHealing
open External DomainEntries IdealCrates ChainAppend ChainSteps ChainReplay ChainForks ChainHistory ChainConvergence
open HonestSigners HashLinks DomainRuntime ProjectionCache

variable {crates : DomainCrates} {c o : DomainChain} {w x y : DomainWitness} {common xs ys rest : List DomainWitness}

-- A chain a seat can be left with: it verifies and no two entries share an id.
structure Healthy (crates : DomainCrates) (c : DomainChain) : Prop where
  verifying : SelfVerifying crates c
  distinct : (c.entries.map DomainWitness.id).Nodup

-- What a healed partition should agree on: the branch whose first entry of its own
-- comes first, or the longer chain where one continues the other.
def winner : List DomainWitness → List DomainWitness → List DomainWitness
  | [],ys => ys
  | xs,[] => xs
  | x::xs,y::ys =>
    if x = y then x::winner xs ys
    else if linearisationCmp x y = .lt then x::xs else y::ys

theorem winner_common : winner (common++xs) (common++ys) = common++winner xs ys := by
  induction common with
  | nil => rfl
  | cons e rest ih => simp [winner,ih]

theorem winner_longer : winner [] ys = ys ∧ winner ys [] = ys := by
  cases ys <;> simp [winner]

theorem winner_branch (different : x ≠ y) :
    winner (x::xs) (y::ys) = if linearisationCmp x y = .lt then x::xs else y::ys := by
  simp [winner,different]

theorem lists_part (xs ys : List DomainWitness) : (∃ rest,ys = xs++rest) ∨ (∃ rest,xs = ys++rest) ∨
    ∃ common x y xs' ys',xs = common++x::xs' ∧ ys = common++y::ys' ∧ x ≠ y := by
  induction xs generalizing ys with
  | nil => exact .inl ⟨ys,rfl⟩
  | cons x rest ih =>
    cases ys with
    | nil => exact .inr (.inl ⟨x::rest,rfl⟩)
    | cons y others =>
      by_cases same : x = y
      · subst same
        rcases ih others with ⟨more,shape⟩ | ⟨more,shape⟩ | ⟨common,a,b,as,bs,left,right,apart⟩
        · exact .inl ⟨more,by rw [shape]; rfl⟩
        · exact .inr (.inl ⟨more,by rw [shape]; rfl⟩)
        · exact .inr (.inr ⟨x::common,a,b,as,bs,by rw [left]; rfl,by rw [right]; rfl,apart⟩)
      · exact .inr (.inr ⟨[],x,y,rest,others,rfl,rfl,same⟩)

def absorbBatch (crates : DomainCrates) (c : DomainChain) : List DomainWitness → DomainChain
  | [] => c
  | w::rest =>
    if (tryAppend crates .done c w).1.isOk then absorbBatch crates (deliver crates c (.done,w)) rest
    else deliver crates c (.done,w)

-- A tail as it arrives, file operations succeeding.
def served (tail : List DomainWitness) : List (FileResult × DomainWitness) := tail.map fun w => (.done,w)

theorem batch_chain (rt : DomainWitnessRuntime) (tail : List DomainWitness) :
    (applyBatchFrom crates count rt peer (served tail)).2.chain = absorbBatch crates rt.chain tail := by
  induction tail generalizing count rt with
  | nil => rfl
  | cons w rest ih =>
    have absorbs := receive_absorbs crates (.done,w) rt peer
    have answered : (receiveRemoteWitness crates .done rt w peer).1.isOk = _ := receive_ok (d := (.done,w))
    simp only [served,List.map_cons,applyBatchFrom,absorbBatch]
    cases result : receiveRemoteWitness crates .done rt w peer with
    | mk outcome next =>
      rw [result] at absorbs answered
      have moved : next.chain = deliver crates rt.chain (.done,w) := absorbs.chain
      cases outcome with
      | error e =>
        have stopped : (tryAppend crates .done rt.chain w).1.isOk = false := answered.symm
        simp [stopped,moved]
      | ok outcome =>
        have onward : (tryAppend crates .done rt.chain w).1.isOk = true := answered.symm
        simp only [onward,if_true,← moved]
        exact ih next

theorem absorb_known (known : ∀ w ∈ xs,Known c w) : absorbBatch crates c (xs++rest) = absorbBatch crates c rest := by
  induction xs with
  | nil => rfl
  | cons w others ih =>
    have duplicate : tryAppend crates .done c w = (.ok .duplicateAlreadyPresent,c) :=
      tryAppend_known (known w (List.mem_cons_self ..))
    simp only [List.cons_append,absorbBatch,deliver,duplicate]
    exact ih fun v member => known v (List.mem_cons_of_mem _ member)

theorem absorb_refused (refused : ∀ w ∈ xs,(tryAppend crates .done c w).2 = c) : absorbBatch crates c xs = c := by
  induction xs with
  | nil => rfl
  | cons w others ih =>
    have here : deliver crates c (.done,w) = c := refused w (List.mem_cons_self ..)
    simp only [absorbBatch,here]
    split
    · exact ih fun v member => refused v (List.mem_cons_of_mem _ member)
    · rfl

theorem extends_ok (fresh : ¬ Known c w) (named : w.prevHashB64 = c.headHashB64)
    (admitted : Admitted crates c.publicKeys w c.entries.length) (readable : KeyReadable crates w) :
    (tryAppend crates .done c w).1 = .ok .applied ∧ (deliver crates c (.done,w)).entries = c.entries++[w] := by
  have stored : (persistEntry crates .done c w).1 = .ok () := written_exact.mpr (.inr rfl)
  obtain ⟨keys,updated⟩ := update_readable readable c.publicKeys
  cases result : persistEntry crates .done c w with
  | mk outcome log =>
    rw [result] at stored
    cases stored
    have applied := extends_applied fresh named admitted result updated
    exact ⟨by rw [applied],by rw [deliver,applied]⟩

theorem absorb_extends (valid : SelfVerifying crates c) (replays : Replays crates (c.entries++xs))
    (distinct : ((c.entries++xs).map DomainWitness.id).Nodup) :
    (absorbBatch crates c xs).entries = c.entries++xs ∧ SelfVerifying crates (absorbBatch crates c xs) := by
  induction xs generalizing c with
  | nil => exact ⟨by simp [absorbBatch],valid⟩
  | cons w rest ih =>
    have regroup : c.entries++w::rest = (c.entries++[w])++rest := by simp
    rw [regroup] at replays distinct ⊢
    obtain ⟨_,named,admitted,readable⟩ := replays_snoc.mp (replays_left replays)
    obtain ⟨_,head,keys⟩ := selfVerifying_iff.mp valid
    rw [← head] at named
    rw [← keys] at admitted
    have fresh : ¬ Known c w := by
      intro known
      obtain ⟨e,member,same⟩ := known
      rw [List.map_append,List.map_append] at distinct
      have apart := (List.nodup_append.mp (List.nodup_append.mp distinct).1).2.2
      exact apart e.id (List.mem_map_of_mem member) w.id (by simp) same
    obtain ⟨applied,grown⟩ := extends_ok fresh named admitted readable
    have next : SelfVerifying crates (deliver crates c (.done,w)) := by
      rw [deliver_selfVerifying c (.done,w) valid]
      intro k _ placed inside _
      cases Option.some.inj ((placement_extends named).symm.trans placed)
      exact absurd inside (Nat.lt_irrefl _)
    rw [← grown] at replays distinct ⊢
    have passed : (tryAppend crates .done c w).1.isOk = true := by rw [applied]; rfl
    simp only [absorbBatch,passed,if_true]
    exact ih next replays distinct

theorem healthy_head (healthy : Healthy crates c) : c.headHashB64 = headOf crates c.entries :=
  (selfVerifying_iff.mp healthy.verifying).2.1

theorem healthy_linked (healthy : Healthy crates c) :
    Linked (canonicalHashB64 crates) DomainWitness.prevHashB64 (zeroPrevHashB64 crates) c.entries :=
  healthy.verifying.anchored.linked

theorem head_inside (free : CollisionFree crates) (healthyC : Healthy crates c) (healthyO : Healthy crates o)
    (member : w ∈ o.entries) (named : canonicalHashB64 crates w = c.headHashB64) : ∃ rest,o.entries = c.entries++rest := by
  obtain ⟨before,after,shape⟩ := List.append_of_mem member
  have regroup : o.entries = (before++[w])++after := by rw [shape]; simp
  have linked := healthy_linked healthyO
  rw [regroup,linked_append] at linked
  have tips : tip (canonicalHashB64 crates) (zeroPrevHashB64 crates) (before++[w]) =
      tip (canonicalHashB64 crates) (zeroPrevHashB64 crates) c.entries := by
    rw [tip_snoc,named,healthy_head healthyC,headOf]
  exact ⟨after,by rw [regroup,tip_commits free linked.1 (healthy_linked healthyC) tips]⟩

theorem tailLoop_missing (missing : ∀ e ∈ xs,canonicalHashB64 crates e ≠ sought) : tailLoop crates sought xs = none := by
  induction xs with
  | nil => rfl
  | cons e rest ih =>
    rw [tailLoop,if_neg (missing e (List.mem_cons_self ..))]
    exact ih fun v member => missing v (List.mem_cons_of_mem _ member)

theorem tailLoop_found (missing : ∀ e ∈ xs,canonicalHashB64 crates e ≠ canonicalHashB64 crates w) :
    tailLoop crates (canonicalHashB64 crates w) (xs++w::rest) = some rest := by
  induction xs with
  | nil => simp [tailLoop]
  | cons e others ih =>
    rw [List.cons_append,tailLoop,if_neg (missing e (List.mem_cons_self ..))]
    exact ih fun v member => missing v (List.mem_cons_of_mem _ member)

theorem tail_rest (free : CollisionFree crates) (healthyC : Healthy crates c) (healthyO : Healthy crates o)
    (nonempty : c.entries ≠ []) (shape : o.entries = c.entries++rest) : ChainAppend.tailAfter crates o c.headHashB64 = rest := by
  unfold ChainAppend.tailAfter
  split
  · rename_i same
    rw [healthy_head healthyC,healthy_head healthyO] at same
    have equal := tip_commits free (healthy_linked healthyC) (healthy_linked healthyO) same
    rw [← equal] at shape
    exact (List.self_eq_append_right.mp shape).symm
  · rw [if_neg (grown_head free healthyC.verifying.anchored nonempty)]
    rcases List.eq_nil_or_concat c.entries with empty | ⟨before,last,split⟩
    · exact absurd empty nonempty
    · rw [List.concat_eq_append] at split
      have head : c.headHashB64 = canonicalHashB64 crates last := by
        rw [healthy_head healthyC,split]; simp [headOf]
      have missing : ∀ e ∈ before,canonicalHashB64 crates e ≠ canonicalHashB64 crates last := by
        intro e member same
        have distinct := healthyC.distinct
        rw [split,List.map_append] at distinct
        have apart := (List.nodup_append.mp distinct).2.2
        exact apart e.id (List.mem_map_of_mem member) last.id (by simp) (by rw [free.injective same])
      have regroup : o.entries = before++last::rest := by rw [shape,split]; simp
      rw [head,regroup,tailLoop_found missing]
      rfl

theorem tail_all (free : CollisionFree crates) (healthyC : Healthy crates c) (healthyO : Healthy crates o)
    (apart : ¬ ∃ rest,o.entries = c.entries++rest) : ChainAppend.tailAfter crates o c.headHashB64 = o.entries := by
  unfold ChainAppend.tailAfter
  split
  · rename_i same
    rw [healthy_head healthyC,healthy_head healthyO] at same
    have equal := tip_commits free (healthy_linked healthyC) (healthy_linked healthyO) same
    exact absurd ⟨[],by rw [equal]; simp⟩ apart
  · split
    · rfl
    · rw [tailLoop_missing]
      · rfl
      · intro e member named
        exact apart (head_inside free healthyC healthyO member named)

theorem parted_not_longer (theirs : o.entries = common++x::xs) (ours : c.entries = common++y::ys) (different : x ≠ y) :
    ¬ ∃ rest,o.entries = c.entries++rest := by
  intro longer
  obtain ⟨rest,shape⟩ := longer
  rw [theirs,ours,List.append_assoc,List.append_cancel_left_eq] at shape
  exact different (List.cons.inj shape).1

theorem placed_common (free : CollisionFree crates) (healthyC : Healthy crates c) (healthyO : Healthy crates o)
    (split : o.entries = before++w::after) (placed : placement crates c w = some k) :
    c.entries.take k = before ∧ k ≤ c.entries.length := by
  obtain ⟨bound,named⟩ := placement_prev healthyC.verifying.anchored placed
  have linked := healthy_linked healthyO
  rw [split,linked_append] at linked
  have parent : w.prevHashB64 = headOf crates before := linked.2.1
  exact ⟨tip_commits free (linked_take (healthy_linked healthyC) k) linked.1 (named.symm.trans parent),bound⟩

-- Two branches from one ancestor: o continues with x, c with y.
section Parted
variable (free : CollisionFree crates) (healthyC : Healthy crates c) (healthyO : Healthy crates o)
  (theirs : o.entries = common++x::xs) (ours : c.entries = common++y::ys)
include free healthyC healthyO theirs ours

theorem later_refused (different : x ≠ y) (member : w ∈ xs) : (tryAppend crates .done c w).2 = c := by
  obtain ⟨before,after,shape⟩ := List.append_of_mem member
  have split : o.entries = (common++x::before)++w::after := by rw [theirs,shape]; simp
  rcases tryAppend_cases crates .done c w with ⟨same,_⟩ | ⟨k,_,placed,_,_,_⟩
  · exact same
  · obtain ⟨kept,_⟩ := placed_common free healthyC healthyO split placed
    have inside : common++x::before <+: common++y::ys := by
      rw [← kept,← ours]; exact List.take_prefix ..
    rw [List.prefix_append_right_inj] at inside
    exact absurd (List.cons_prefix_cons.mp inside).1 different

theorem first_placed (fresh : ¬ Known c x) (placed : placement crates c x = some k) :
    k = common.length ∧ linearisationCmp x y = .lt := by
  obtain ⟨kept,bound⟩ := placed_common free healthyC healthyO theirs placed
  have position : k = common.length := by
    have lengths := congrArg List.length kept
    rw [List.length_take,Nat.min_eq_left bound] at lengths
    exact lengths
  have standing : c.entries[k]? = some y := by
    rw [ours,position,List.getElem?_append_right (Nat.le_refl _)]
    simp
  obtain ⟨_,named⟩ := placement_prev healthyC.verifying.anchored placed
  have inside : k < c.entries.length := (List.getElem?_eq_some_iff.mp standing).1
  exact ⟨position,((placement_fork free healthyC.verifying.anchored fresh ⟨inside,named⟩ standing).mp placed).2⟩

-- The seat keeps its branch when its own entry comes first, and also when theirs does
-- but carries an id it knows or does not verify under the keys it holds.
theorem parted_stays (different : x ≠ y) (stays : linearisationCmp x y = .lt → ¬ (¬ Known c x ∧ Admitted crates c.publicKeys x common.length)) :
    absorbBatch crates c (x::xs) = c := by
  apply absorb_refused
  intro w member
  cases List.mem_cons.mp member with
  | inr later => exact later_refused free healthyC healthyO theirs ours different later
  | inl same =>
    subst same
    rcases tryAppend_cases crates .done c w with ⟨same,_⟩ | ⟨k,fresh,placed,_,admitted,_⟩
    · exact same
    · obtain ⟨position,first⟩ := first_placed free healthyC healthyO theirs ours fresh placed
      subst position
      exact absurd ⟨fresh,admitted⟩ (stays first)

theorem parted_adopts (later : 0 < common.length) (first : linearisationCmp x y = .lt) (fresh : ¬ Known c x)
    (admitted : Admitted crates c.publicKeys x common.length) :
    (absorbBatch crates c (x::xs)).entries = o.entries ∧ SelfVerifying crates (absorbBatch crates c (x::xs)) := by
  have anchored := healthyC.verifying.anchored
  have replays := (selfVerifying_iff.mp healthyO.verifying).1
  have regroup : o.entries = (common++[x])++xs := by rw [theirs]; simp
  rw [regroup] at replays
  obtain ⟨shared,named,accepted,readable⟩ := replays_snoc.mp (replays_left replays)
  have kept : c.entries.take common.length = common := by rw [ours,List.take_left]
  have inside : common.length < c.entries.length := by rw [ours]; simp
  have standing : c.entries[common.length]? = some y := by
    rw [ours,List.getElem?_append_right (Nat.le_refl _)]
    simp
  have fork : ForksAt crates c x common.length := ⟨inside,by rw [kept]; exact named⟩
  have placed := (placement_fork free anchored fresh fork standing).mpr ⟨.inl ⟨later,admitted_contains admitted later⟩,first⟩
  have applied : (tryAppend crates .done c x).1 = .ok .applied := by
    rw [tryAppend_settles fresh placed admitted,settle,if_neg (Nat.ne_of_lt inside),kept]
    exact install_applied.mpr ⟨rebuildLoop_exact.mp (replays_rebuilds (replays_left replays)),.inr rfl⟩
  have enters : Enters crates c (.done,x) common.length :=
    ⟨placed,fresh,admitted,fun whole => absurd whole (Nat.ne_of_lt inside)⟩
  have grown : (deliver crates c (.done,x)).entries = common++[x] := by
    rw [(deliver_enters enters).1,kept]
  have next : SelfVerifying crates (deliver crates c (.done,x)) := by
    rw [deliver_selfVerifying c (.done,x) healthyC.verifying]
    intro k _ other _ _
    cases Option.some.inj (placed.symm.trans other)
    rw [kept]
    exact ⟨accepted,readable⟩
  have passed : (tryAppend crates .done c x).1.isOk = true := by rw [applied]; rfl
  have distinct := healthyO.distinct
  rw [regroup,← grown] at distinct
  rw [← grown] at replays
  simp only [absorbBatch,passed,if_true]
  rw [regroup,← grown]
  exact absorb_extends next replays distinct

end Parted

-- The chain after a seat has applied a peer's answer to its own head.
def received (crates : DomainCrates) (c o : DomainChain) : DomainChain :=
  absorbBatch crates c (ChainAppend.tailAfter crates o c.headHashB64)

-- Where the peer's branch comes first, its first entry is one this seat can take: an id
-- it does not know yet and a signature that verifies under the keys it holds, those of
-- its own branch included.
def Takes (crates : DomainCrates) (c o : DomainChain) : Prop :=
  ∀ common x y xs ys,o.entries = common++x::xs → c.entries = common++y::ys → x ≠ y → linearisationCmp x y = .lt →
    ¬ Known c x ∧ Admitted crates c.publicKeys x common.length

theorem parting_unique {common common' xs xs' ys ys' : List DomainWitness} {x x' y y' : DomainWitness}
    (left : common++x::xs = common'++x'::xs') (right : common++y::ys = common'++y'::ys')
    (different : x ≠ y) (different' : x' ≠ y') : common = common' ∧ x = x' ∧ y = y' := by
  induction common generalizing common' with
  | nil =>
    cases common' with
    | nil => exact ⟨rfl,(List.cons.inj left).1,(List.cons.inj right).1⟩
    | cons e rest => exact absurd ((List.cons.inj left).1.trans (List.cons.inj right).1.symm) different
  | cons e rest ih =>
    cases common' with
    | nil => exact absurd ((List.cons.inj left).1.symm.trans (List.cons.inj right).1) different'
    | cons e' rest' =>
      obtain ⟨same,one,two⟩ := ih (List.cons.inj left).2 (List.cons.inj right).2
      exact ⟨by rw [same,(List.cons.inj left).1],one,two⟩

theorem takes_parted (theirs : o.entries = common++x::xs) (ours : c.entries = common++y::ys) (different : x ≠ y) :
    Takes crates c o ↔ (linearisationCmp x y = .lt → ¬ Known c x ∧ Admitted crates c.publicKeys x common.length) := by
  constructor
  · intro takes
    exact takes common x y xs ys theirs ours different
  · intro here common' x' y' xs' ys' theirs' ours' different' first
    obtain ⟨rfl,rfl,rfl⟩ := parting_unique (theirs.symm.trans theirs') (ours.symm.trans ours') different different'
    exact here first

theorem takes_longer (longer : (∃ rest,o.entries = c.entries++rest) ∨ ∃ rest,c.entries = o.entries++rest) :
    Takes crates c o := by
  intro common x y xs ys theirs ours different
  cases longer with
  | inl more => exact absurd more (parted_not_longer theirs ours different)
  | inr more => exact absurd more (parted_not_longer ours theirs different.symm)

theorem known_member (member : w ∈ c.entries) : Known c w := ⟨w,member,rfl⟩

theorem received_exact (free : CollisionFree crates) (healthyC : Healthy crates c) (healthyO : Healthy crates o)
    (founded : c.entries ≠ []) (genesis : o.entries.head? = c.entries.head?) :
    ((received crates c o).entries = winner o.entries c.entries ↔ Takes crates c o) ∧
      SelfVerifying crates (received crates c o) := by
  unfold received
  by_cases longer : ∃ rest,o.entries = c.entries++rest
  · obtain ⟨rest,shape⟩ := longer
    have replays := (selfVerifying_iff.mp healthyO.verifying).1
    have distinct := healthyO.distinct
    rw [shape] at replays distinct
    obtain ⟨entries,valid⟩ := absorb_extends healthyC.verifying replays distinct
    rw [tail_rest free healthyC healthyO founded shape]
    refine ⟨iff_of_true ?_ (takes_longer (.inl ⟨rest,shape⟩)),valid⟩
    have agreed : winner (c.entries++rest) (c.entries++[]) = c.entries++winner rest [] := winner_common
    rw [List.append_nil,winner_longer.2] at agreed
    rw [entries,shape,agreed]
  · rw [tail_all free healthyC healthyO longer]
    rcases lists_part o.entries c.entries with ⟨rest,shape⟩ | more | ⟨common,x,y,xs,ys,theirs,ours,different⟩
    · have known : ∀ w ∈ o.entries,Known c w := by
        intro w member
        exact known_member (by rw [shape]; exact List.mem_append_left _ member)
      have still : absorbBatch crates c (o.entries++[]) = c := absorb_known known
      rw [List.append_nil] at still
      rw [still]
      refine ⟨iff_of_true ?_ (takes_longer (.inr ⟨rest,shape⟩)),healthyC.verifying⟩
      have agreed : winner (o.entries++[]) (o.entries++rest) = o.entries++winner [] rest := winner_common
      rw [List.append_nil,winner_longer.1] at agreed
      rw [shape,agreed]
    · exact absurd more longer
    · have shared : 0 < common.length := by
        cases common with
        | nil =>
          rw [theirs,ours] at genesis
          exact absurd (Option.some.inj genesis) different
        | cons e rest => simp
      have known : ∀ w ∈ common,Known c w := by
        intro w member
        exact known_member (by rw [ours]; exact List.mem_append_left _ member)
      have skipped : absorbBatch crates c o.entries = absorbBatch crates c (x::xs) := by
        rw [theirs]; exact absorb_known known
      have agreed : winner o.entries c.entries = common++(if linearisationCmp x y = .lt then x::xs else y::ys) := by
        rw [theirs,ours,winner_common,winner_branch different]
      rw [skipped,agreed,takes_parted theirs ours different]
      by_cases first : linearisationCmp x y = .lt
      · simp only [first,if_true,forall_const]
        by_cases takes : ¬ Known c x ∧ Admitted crates c.publicKeys x common.length
        · obtain ⟨entries,valid⟩ := parted_adopts free healthyC healthyO theirs ours shared first takes.1 takes.2
          exact ⟨iff_of_true (entries.trans theirs) takes,valid⟩
        · rw [parted_stays free healthyC healthyO theirs ours different fun _ => takes]
          refine ⟨iff_of_false ?_ takes,healthyC.verifying⟩
          intro same
          rw [ours,List.append_cancel_left_eq] at same
          exact different (List.cons.inj same).1.symm
      · rw [parted_stays free healthyC healthyO theirs ours different fun lt => absurd lt first]
        exact ⟨iff_of_true (by simp [first,ours]) fun lt => absurd lt first,healthyC.verifying⟩

theorem winner_symm (apart : ∀ common x y xs' ys',xs = common++x::xs' → ys = common++y::ys' → x ≠ y →
    linearisationCmp x y ≠ .eq) : winner xs ys = winner ys xs := by
  rcases lists_part xs ys with ⟨rest,rfl⟩ | ⟨rest,rfl⟩ | ⟨common,x,y,xs',ys',rfl,rfl,different⟩
  · have one : winner (xs++[]) (xs++rest) = xs++winner [] rest := winner_common
    have two : winner (xs++rest) (xs++[]) = xs++winner rest [] := winner_common
    rw [List.append_nil] at one two
    rw [one,two,winner_longer.1,winner_longer.2]
  · have one : winner (ys++[]) (ys++rest) = ys++winner [] rest := winner_common
    have two : winner (ys++rest) (ys++[]) = ys++winner rest [] := winner_common
    rw [List.append_nil] at one two
    rw [one,two,winner_longer.1,winner_longer.2]
  · rw [winner_common,winner_common,winner_branch different,winner_branch different.symm]
    cases order : linearisationCmp x y with
    | lt => simp [linearisation_asymm.mpr order]
    | eq => exact absurd order (apart common x y xs' ys' rfl rfl different)
    | gt => simp [linearisation_asymm.mp order]

-- First entries of their own that differ in time or originator.
def PartApart (xs ys : List DomainWitness) : Prop :=
  ∀ common x y xs' ys',xs = common++x::xs' → ys = common++y::ys' → x ≠ y → linearisationCmp x y ≠ .eq

-- Both seats hold the agreed chain, and with it one head and one resolver.
structure Healed (p q : DomainChain) (agreed : List DomainWitness) : Prop where
  one : p.entries = agreed
  two : q.entries = agreed
  head : p.headHashB64 = q.headHashB64
  keys : p.publicKeys = q.publicKeys

theorem healed_exact (verifyingP : SelfVerifying crates c) (verifyingQ : SelfVerifying crates o) :
    Healed c o agreed ↔ c.entries = agreed ∧ o.entries = agreed := by
  obtain ⟨_,headP,keysP⟩ := selfVerifying_iff.mp verifyingP
  obtain ⟨_,headQ,keysQ⟩ := selfVerifying_iff.mp verifyingQ
  constructor
  · intro healed
    exact ⟨healed.one,healed.two⟩
  · intro both
    exact ⟨both.1,both.2,by rw [headP,headQ,both.1,both.2],by rw [keysP,keysQ,both.1,both.2]⟩

-- A seat applies what the peer answers to the head it had before the exchange.
def healed (crates : DomainCrates) (rt peer : DomainWitnessRuntime) (peerId : String) : DomainChain :=
  (applyResponseBatch crates rt (served (DomainRuntime.tailAfter crates peer rt.chain.headHashB64)) peerId).2.chain

theorem healing_exactly (free : CollisionFree crates) (P Q : DomainWitnessRuntime)
    (healthyP : Healthy crates P.chain) (healthyQ : Healthy crates Q.chain) (founded : P.chain.entries ≠ [])
    (genesis : P.chain.entries.head? = Q.chain.entries.head?) (apart : PartApart P.chain.entries Q.chain.entries)
    (peerP peerQ : String) :
    Healed (healed crates P Q peerQ) (healed crates Q P peerP) (winner P.chain.entries Q.chain.entries) ↔
      Takes crates P.chain Q.chain ∧ Takes crates Q.chain P.chain := by
  have alsoFounded : Q.chain.entries ≠ [] := by
    intro empty
    rw [empty] at genesis
    exact founded (List.head?_eq_none_iff.mp genesis)
  obtain ⟨exactP,validP⟩ := received_exact free healthyP healthyQ founded genesis.symm
  obtain ⟨exactQ,validQ⟩ := received_exact free healthyQ healthyP alsoFounded genesis
  rw [← winner_symm apart] at exactP
  have chainP : healed crates P Q peerQ = received crates P.chain Q.chain := batch_chain P _
  have chainQ : healed crates Q P peerP = received crates Q.chain P.chain := batch_chain Q _
  rw [chainP,chainQ,healed_exact validP validQ,exactP,exactQ]

section TwoBranches
variable (crates)

def gestureChain (identifier : String) (ts : UInt64) : DomainChain :=
  ⟨[founding crates,gesture crates identifier ts],canonicalHashB64 crates (gesture crates identifier ts),
    founderKeys crates,.memory,none⟩

variable {crates}

theorem gestureChain_healthy (documented : Documented crates.toCrates) (other : identifier ≠ "w0") :
    Healthy crates (gestureChain crates identifier ts) := by
  obtain ⟨replays,keys⟩ := second_replays documented (w := gesture crates identifier ts) rfl rfl
  refine ⟨selfVerifying_iff.mpr ⟨replays,rfl,keys.symm⟩,?_⟩
  simp [gestureChain,founding,selfAdmission,gesture,sign,other.symm]

theorem rotatedChain_healthy (documented : Documented crates.toCrates) : Healthy crates (rotatedChain crates) := by
  obtain ⟨replays,keys⟩ := second_replays documented (w := keyRotation crates) rfl (admission_updates documented rfl)
  refine ⟨selfVerifying_iff.mpr ⟨replays,rfl,keys.symm⟩,?_⟩
  simp [rotatedChain,founding,selfAdmission,keyRotation,sign]

theorem second_apart (ours : c.entries = [founding crates,y]) (theirs : o.entries = [founding crates,x])
    (earlier : x.tsNs < y.tsNs) : PartApart o.entries c.entries := by
  have different : x ≠ y := fun same => absurd (same ▸ earlier) (UInt64.lt_irrefl _)
  intro common x' y' xs' ys' left right different'
  have split : [founding crates]++[x] = common++x'::xs' := theirs.symm.trans left
  obtain ⟨_,rfl,rfl⟩ := parting_unique split (ours.symm.trans right) different different'
  rw [earlier_first earlier]
  simp

theorem second_takes (ours : c.entries = [founding crates,y]) (theirs : o.entries = [founding crates,x])
    (earlier : x.tsNs < y.tsNs) : (Takes crates o c) ∧
      (Takes crates c o ↔ ¬ Known c x ∧ Admitted crates c.publicKeys x 1) := by
  have first : linearisationCmp x y = .lt := earlier_first earlier
  have different : x ≠ y := fun same => absurd (same ▸ earlier) (UInt64.lt_irrefl _)
  constructor
  · refine (takes_parted (show _ = [founding crates]++[y] from ours) theirs different.symm).mpr ?_
    intro second
    exact absurd second (first_asymm _ _ first)
  · refine (takes_parted (show _ = [founding crates]++[x] from theirs) ours different).trans ?_
    simp [first]

end TwoBranches

theorem gestures_heal : Healed
    (healed domainLibrary (DomainRuntime.new domainLibrary (gestureChain domainLibrary "w1" 1) founder "founder")
      (DomainRuntime.new domainLibrary (gestureChain domainLibrary "w2" 2) founder "founder") "q")
    (healed domainLibrary (DomainRuntime.new domainLibrary (gestureChain domainLibrary "w2" 2) founder "founder")
      (DomainRuntime.new domainLibrary (gestureChain domainLibrary "w1" 1) founder "founder") "p")
    (winner (gestureChain domainLibrary "w1" 1).entries (gestureChain domainLibrary "w2" 2).entries) := by
  have earlier : (gesture domainLibrary "w1" 1).tsNs < (gesture domainLibrary "w2" 2).tsNs := show (1 : UInt64) < 2 by decide
  have one : Healthy domainLibrary (gestureChain domainLibrary "w1" 1) :=
    gestureChain_healthy domainLibrary_documented (by decide)
  have two : Healthy domainLibrary (gestureChain domainLibrary "w2" 2) :=
    gestureChain_healthy domainLibrary_documented (by decide)
  obtain ⟨easy,takes⟩ := second_takes (c := gestureChain domainLibrary "w2" 2) (o := gestureChain domainLibrary "w1" 1)
    rfl rfl earlier
  refine (healing_exactly domainLibrary_free
    (DomainRuntime.new domainLibrary (gestureChain domainLibrary "w1" 1) founder "founder")
    (DomainRuntime.new domainLibrary (gestureChain domainLibrary "w2" 2) founder "founder") one two
    (by simp [DomainRuntime.new,gestureChain]) rfl (second_apart rfl rfl earlier) "p" "q").mpr ⟨easy,takes.mpr ⟨?_,?_⟩⟩
  · simp [Known,gestureChain,founding,selfAdmission,gesture,sign]
  · exact signed_admitted domainLibrary_documented (by simp [gestureChain,founderKeys])

-- One seat went on with the founder's old key, the other has seen the founder change it.
theorem rotated_stays_parted (documented : Documented crates.toCrates) (ideal : Ideal crates.toCrates)
    (other : crates.verifyingKey guest ≠ crates.verifyingKey founder) :
    ¬ Takes crates (rotatedChain crates) (gestureChain crates "w2" 50) := by
  have earlier : (gesture crates "w2" 50).tsNs < (keyRotation crates).tsNs := show (50 : UInt64) < 100 by decide
  rw [(second_takes (c := rotatedChain crates) (o := gestureChain crates "w2" 50) rfl rfl earlier).2]
  intro both
  exact heldBack_refused documented ideal other both.2

theorem rotated_breaks_healing (documented : Documented crates.toCrates) (ideal : Ideal crates.toCrates)
    (free : CollisionFree crates) (other : crates.verifyingKey guest ≠ crates.verifyingKey founder)
    (always : ∀ P Q : DomainWitnessRuntime,Healthy crates P.chain → Healthy crates Q.chain → P.chain.entries ≠ [] →
      P.chain.entries.head? = Q.chain.entries.head? → PartApart P.chain.entries Q.chain.entries → ∀ peerP peerQ,
      Healed (healed crates P Q peerQ) (healed crates Q P peerP) (winner P.chain.entries Q.chain.entries)) : False := by
  have earlier : (gesture crates "w2" 50).tsNs < (keyRotation crates).tsNs := show (50 : UInt64) < 100 by decide
  have healthyP : Healthy crates (gestureChain crates "w2" 50) := gestureChain_healthy documented (by decide)
  have healthyQ := rotatedChain_healthy documented
  have healed_ := always (DomainRuntime.new crates (gestureChain crates "w2" 50) founder "founder")
    (DomainRuntime.new crates (rotatedChain crates) guest "founder") healthyP healthyQ
    (by simp [DomainRuntime.new,gestureChain]) rfl (second_apart rfl rfl earlier) "p" "q"
  have chain : healed crates (DomainRuntime.new crates (rotatedChain crates) guest "founder")
      (DomainRuntime.new crates (gestureChain crates "w2" 50) founder "founder") "p" =
      received crates (rotatedChain crates) (gestureChain crates "w2" 50) := batch_chain _ _
  have entries := healed_.two
  rw [chain] at entries
  have exactly := (received_exact free healthyQ healthyP (by simp [rotatedChain]) rfl).1
  exact rotated_stays_parted documented ideal other (exactly.mp entries)

theorem rotated_partition_remains : ¬ ∀ (crates : DomainCrates),
    Documented crates.toCrates → Ideal crates.toCrates → CollisionFree crates →
    ∀ P Q : DomainWitnessRuntime,Healthy crates P.chain → Healthy crates Q.chain → P.chain.entries ≠ [] →
      P.chain.entries.head? = Q.chain.entries.head? → PartApart P.chain.entries Q.chain.entries → ∀ peerP peerQ,
      Healed (healed crates P Q peerQ) (healed crates Q P peerP) (winner P.chain.entries Q.chain.entries) := by
  intro always
  have different : domainLibrary.verifyingKey guest ≠ domainLibrary.verifyingKey founder := by
    rw [domainLibrary_key,domainLibrary_key]
    decide
  exact rotated_breaks_healing domainLibrary_documented domainLibrary_ideal domainLibrary_free different
    (always domainLibrary domainLibrary_documented domainLibrary_ideal domainLibrary_free)

end EvoCore.PartitionHealing
