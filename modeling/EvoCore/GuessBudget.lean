import EvoCore.StepUpLimiter

namespace EvoCore.StepUp
open Runs

-- The account of one identity: the stamps in its bucket, those of the calls let through and not yet
-- charged (the rejected ones among them apart), and the rejections since the last success.
structure Account where
  ceiling : Nat
  window : Nat
  clock : Nat
  bucket : List Nat
  underway : Multiset Nat
  rejected : Multiset Nat
  period : List (Nat × Nat)

def Account.recent (a : Account) : List (Nat × Nat) := a.period.filter fun e => a.clock < e.2 + a.window
def Account.span (a : Account) (start : Nat) : List (Nat × Nat) :=
  a.period.filter fun e => start ≤ e.2 ∧ e.2 < start + a.window

structure Account.Sound (a : Account) : Prop where
  among : a.rejected ≤ a.underway
  charged : a.bucket.length + Multiset.card a.underway ≤ a.ceiling
  tracked : (↑(a.recent.map (·.1)) : Multiset Nat) ≤ ↑a.bucket + a.rejected
  past : ∀ e ∈ a.period,e.2 ≤ a.clock
  spans : ∀ start,(a.span start).length ≤ a.ceiling

variable {a : Account} {stamp : Nat}

theorem recent_within (sound : a.Sound) : a.recent.length ≤ a.bucket.length + Multiset.card a.rejected := by
  have cards := Multiset.card_le_card sound.tracked
  simpa using cards

theorem sound_tick (sound : a.Sound) (later : a.clock ≤ clock) : ({ a with clock := clock } : Account).Sound where
  among := sound.among
  charged := sound.charged
  tracked := by
    refine le_trans (Multiset.coe_le.mpr (List.Sublist.subperm (List.Sublist.map _ ?_))) sound.tracked
    apply List.monotone_filter_right
    intro e held
    simp only [decide_eq_true_eq] at held ⊢
    omega
  past e member := le_trans (sound.past e member) later
  spans := sound.spans

theorem sound_prune (sound : a.Sound) (cutoff : Nat) (aged : ∀ e ∈ a.period,e.1 ≤ cutoff → e.2 + a.window ≤ a.clock) :
    ({ a with bucket := a.bucket.filter fun t => cutoff < t } : Account).Sound where
  among := sound.among
  charged := by
    have fewer : (a.bucket.filter fun t => cutoff < t).length ≤ a.bucket.length := List.length_filter_le _ _
    have held := sound.charged
    simp only
    omega
  tracked := by
    have young : (↑(a.recent.map (·.1)) : Multiset Nat).filter (cutoff < ·) = ↑(a.recent.map (·.1)) := by
      rw [Multiset.filter_eq_self]
      intro t member
      obtain ⟨e,recent,rfl⟩ := List.mem_map.mp (Multiset.mem_coe.mp member)
      obtain ⟨member,young⟩ := List.mem_filter.mp recent
      by_contra old
      have away := aged e member (Nat.not_lt.mp old)
      simp only [decide_eq_true_eq] at young
      omega
    have filtered := Multiset.filter_le_filter (cutoff < ·) sound.tracked
    rw [young,Multiset.filter_add,Multiset.filter_coe] at filtered
    exact le_trans filtered (add_le_add_right (Multiset.filter_le _ _) _)
  past := sound.past
  spans := sound.spans

theorem sound_admit (sound : a.Sound) (room : a.bucket.length + Multiset.card a.underway < a.ceiling) :
    ({ a with underway := a.underway + {stamp} } : Account).Sound where
  among := le_trans sound.among (Multiset.le_add_right _ _)
  charged := by
    simp only [Multiset.card_add,Multiset.card_singleton]
    omega
  tracked := sound.tracked
  past := sound.past
  spans := sound.spans

theorem sound_leave (sound : a.Sound) (left : underway + {stamp} = a.underway) (among : a.rejected ≤ underway) :
    ({ a with underway } : Account).Sound where
  among := among
  charged := by
    have held := sound.charged
    rw [← left,Multiset.card_add,Multiset.card_singleton] at held
    simp only
    omega
  tracked := sound.tracked
  past := sound.past
  spans := sound.spans

-- The one step that adds a rejection. Every span that holds it lies within a window of it.
theorem sound_reject (sound : a.Sound) (among : a.rejected + {stamp} ≤ a.underway) :
    ({ a with rejected := a.rejected + {stamp},period := (stamp,a.clock)::a.period } : Account).Sound where
  among := among
  charged := sound.charged
  tracked := by
    have sub : (↑((({ a with rejected := a.rejected + {stamp},period := (stamp,a.clock)::a.period } : Account).recent).map (·.1)) :
        Multiset Nat) ≤ ↑(stamp::a.recent.map (·.1)) := by
      apply Multiset.coe_le.mpr
      apply List.Sublist.subperm
      simp only [Account.recent,List.filter_cons]
      split
      · exact List.Sublist.refl _
      · exact List.sublist_cons_self _ _
    refine le_trans sub ?_
    rw [← Multiset.cons_coe,← Multiset.singleton_add,add_comm,← add_assoc]
    exact add_le_add_left sound.tracked _
  past e member := by
    rcases List.mem_cons.mp member with rfl | member
    · exact le_rfl
    · exact sound.past e member
  spans start := by
    by_cases inside : start ≤ a.clock ∧ a.clock < start + a.window
    · have sub : (a.span start).length ≤ a.recent.length := by
        apply List.Sublist.length_le
        apply List.monotone_filter_right
        intro e held
        simp only [decide_eq_true_eq] at held ⊢
        omega
      have counted := recent_within sound
      have room := Multiset.card_le_card among
      rw [Multiset.card_add,Multiset.card_singleton] at room
      have held := sound.charged
      simp only [Account.span,List.filter_cons,inside,and_self,decide_true,if_true,List.length_cons] at sub ⊢
      omega
    · have same : (({ a with rejected := a.rejected + {stamp},period := (stamp,a.clock)::a.period } : Account).span start) = a.span start := by
        simp only [Account.span,List.filter_cons,inside,decide_false,Bool.false_eq_true,if_false]
      rw [same]
      exact sound.spans start

theorem sound_record (sound : a.Sound) (left : underway + {stamp} = a.underway) (charged : rejected + {stamp} = a.rejected) :
    ({ a with underway,rejected,bucket := a.bucket ++ [stamp] } : Account).Sound where
  among := by
    have among := sound.among
    rw [← left,← charged] at among
    exact le_of_add_le_add_right among
  charged := by
    have held := sound.charged
    rw [← left,Multiset.card_add,Multiset.card_singleton] at held
    simp only [List.length_append,List.length_singleton]
    omega
  tracked := by
    have tracked := sound.tracked
    rw [← charged] at tracked
    refine le_trans tracked (le_of_eq ?_)
    rw [← Multiset.coe_add,add_assoc,add_comm rejected]
    rfl
  past := sound.past
  spans := sound.spans

theorem sound_success (sound : a.Sound) : ({ a with bucket := [],period := [] } : Account).Sound where
  among := sound.among
  charged := by
    have held := sound.charged
    simp only [List.length_nil]
    omega
  tracked := by simp [Account.recent]
  past e member := by cases member
  spans start := by simp [Account.span]

def World.account (w : World) (identity : String) : Account :=
  ⟨w.limiter.maxFailures,w.limiter.windowMs,w.clock,w.limiter.bucket identity,↑(w.calls.filterMap (Call.underway identity)),
    ↑(w.calls.filterMap (Call.uncharged identity)),period identity w.history⟩

variable {w : World} {c : Call} {k nowMs : Nat} {identity other : String} {phase : Phase} {verdict : Verdict} {limiter : StepUpRateLimiter}

def Phase.weight (phase : Phase) (stamp : Nat) : Multiset Nat := if phase.isUnderway then {stamp} else 0
def Phase.charge (phase : Phase) (stamp : Nat) : Multiset Nat := if phase = .rejected then {stamp} else 0

theorem moved_underway (there : w.calls[k]? = some c) (phase : Phase) :
    (w.moved k phase |>.account c.identity).underway + c.phase.weight c.stamp =
      (w.account c.identity).underway + phase.weight c.stamp := by
  have moved := Tables.filterMap_modify (Call.underway c.identity) there fun c => { c with phase }
  have before : (↑(Call.underway c.identity c).toList : Multiset Nat) = c.phase.weight c.stamp := by
    unfold Call.underway Phase.weight
    cases c.phase.isUnderway <;> simp
  have after : (↑(Call.underway c.identity { c with phase }).toList : Multiset Nat) = phase.weight c.stamp := by
    unfold Call.underway Phase.weight
    cases phase.isUnderway <;> simp
  rw [before,after] at moved
  exact moved

theorem moved_rejected (there : w.calls[k]? = some c) (phase : Phase) :
    (w.moved k phase |>.account c.identity).rejected + c.phase.charge c.stamp =
      (w.account c.identity).rejected + phase.charge c.stamp := by
  have moved := Tables.filterMap_modify (Call.uncharged c.identity) there fun c => { c with phase }
  have before : (↑(Call.uncharged c.identity c).toList : Multiset Nat) = c.phase.charge c.stamp := by
    unfold Call.uncharged Phase.charge
    by_cases at_ : c.phase = .rejected <;> simp [at_]
  have after : (↑(Call.uncharged c.identity { c with phase }).toList : Multiset Nat) = phase.charge c.stamp := by
    unfold Call.uncharged Phase.charge
    by_cases at_ : phase = .rejected <;> simp [at_]
  rw [before,after] at moved
  exact moved

theorem moved_apart (phase : Phase) (there : w.calls[k]? = some c) (apart : c.identity ≠ identity) :
    (w.moved k phase).account identity = w.account identity := by
  have underway := Tables.filterMap_modify (Call.underway identity) there fun c => { c with phase }
  have rejected := Tables.filterMap_modify (Call.uncharged identity) there fun c => { c with phase }
  simp only [Call.underway,Call.uncharged,apart,decide_false,Bool.false_and,Bool.false_eq_true,if_false,Option.toList_none,
    Multiset.coe_nil,add_zero] at underway rejected
  simp only [World.account,World.moved]
  congr 1

theorem uncharged_underway (calls : List Call) (identity : String) :
    (↑(calls.filterMap (Call.uncharged identity)) : Multiset Nat) ≤ ↑(calls.filterMap (Call.underway identity)) := by
  induction calls with
  | nil => exact le_rfl
  | cons c rest ih =>
    apply Multiset.coe_le.mpr
    have tail := Multiset.coe_le.mp ih
    by_cases own : c.identity = identity
    · by_cases at_ : c.phase = .rejected
      · simp only [List.filterMap_cons,Call.uncharged,Call.underway,own,at_,Phase.isUnderway,decide_true,Bool.and_self,if_true]
        exact (List.subperm_cons c.stamp).mpr tail
      · cases under : c.phase.isUnderway with
        | true =>
          simp only [List.filterMap_cons,Call.uncharged,Call.underway,own,at_,under,decide_true,decide_false,Bool.and_false,
            Bool.and_true,Bool.false_eq_true,if_false,if_true]
          exact tail.trans (List.sublist_cons_self _ _).subperm
        | false => simpa [Call.uncharged,Call.underway,own,at_,under] using tail
    · simpa [Call.uncharged,Call.underway,own] using tail

theorem account_after (there : w.calls[k]? = some c) (phase : Phase) (limiter : StepUpRateLimiter) (nonces : NonceReplayStore)
    (history : List Event) (ceiling : limiter.maxFailures = w.limiter.maxFailures) (window : limiter.windowMs = w.limiter.windowMs) :
    ∃ underway rejected,({ w.moved k phase with limiter,nonces,history } : World).account c.identity =
        { w.account c.identity with
          bucket := limiter.bucket c.identity,underway,rejected,period := period c.identity history } ∧
      underway + c.phase.weight c.stamp = (w.account c.identity).underway + phase.weight c.stamp ∧
      rejected + c.phase.charge c.stamp = (w.account c.identity).rejected + phase.charge c.stamp ∧ rejected ≤ underway := by
  refine ⟨_,_,?_,moved_underway there phase,moved_rejected there phase,uncharged_underway _ _⟩
  simp only [World.account,ceiling,window,World.moved]

theorem started_own (there : w.calls[k]? = some c) (at_ : c.phase = .started) (sound : (w.account c.identity).Sound)
    (met : InBudget w (.turn k verdict)) : ((turn w k c verdict).account c.identity).Sound := by
  obtain ⟨aged,room⟩ := met c there at_
  have pruned := sound_prune sound (c.stamp - w.limiter.windowMs) aged
  have within : (w.limiter.kept c.identity c.stamp).length ≤ w.limiter.maxFailures :=
    le_trans (Nat.le_add_right _ _) pruned.charged
  have kept : (w.limiter.check c.identity c.stamp).1.bucket c.identity = w.limiter.kept c.identity c.stamp := by simp
  obtain ⟨ceiling,window⟩ := (check_config : (w.limiter.check c.identity c.stamp).1.maxFailures = _ ∧ (w.limiter.check c.identity c.stamp).1.windowMs = _)
  have asked := check_permitted within
  cases answer : w.limiter.check c.identity c.stamp with
  | mk limiter outcome =>
    rw [answer] at kept ceiling window asked
    cases outcome with
    | locked retry =>
      obtain ⟨underway,rejected,shape,weighed,charged,among⟩ := account_after there (.done (.rateLimited retry)) limiter w.nonces
        w.history ceiling window
      have turned : turn w k c verdict = { w.moved k (.done (.rateLimited retry)) with limiter } := by
        simp only [turn,at_,answer]
      have shape : (turn w k c verdict).account c.identity = _ := turned ▸ shape
      simp only [at_,Phase.weight,Phase.charge,Phase.isUnderway,Bool.false_eq_true,reduceCtorEq,if_false,add_zero] at weighed charged
      rw [shape,weighed,charged,kept]
      exact pruned
    | permitted n =>
      obtain ⟨underway,rejected,shape,weighed,charged,among⟩ := account_after there .permitted limiter w.nonces w.history ceiling window
      have turned : turn w k c verdict = { w.moved k .permitted with limiter } := by simp only [turn,at_,answer]
      have shape : (turn w k c verdict).account c.identity = _ := turned ▸ shape
      simp only [at_,Phase.weight,Phase.charge,Phase.isUnderway,Bool.false_eq_true,reduceCtorEq,if_false,if_true,add_zero] at weighed charged
      rw [shape,weighed,charged,kept]
      exact sound_admit pruned (room (asked.mp ⟨n,rfl⟩))

theorem permitted_own (there : w.calls[k]? = some c) (at_ : c.phase = .permitted) (sound : (w.account c.identity).Sound) :
    ((turn w k c verdict).account c.identity).Sound := by
  have goes : ∀ phase nonces,(phase = .ready ∨ ∃ reply,phase = .done reply) →
      (({ w.moved k phase with nonces } : World).account c.identity).Sound := by
    intro phase nonces next
    obtain ⟨underway,rejected,shape,weighed,charged,among⟩ := account_after there phase w.limiter nonces w.history rfl rfl
    have shape : ({ w.moved k phase with nonces } : World).account c.identity = _ := shape
    rw [shape]
    rcases next with rfl | ⟨reply,rfl⟩
    · simp only [at_,Phase.weight,Phase.charge,Phase.isUnderway,reduceCtorEq,if_false,if_true,add_zero] at weighed charged
      rw [add_right_cancel weighed,charged]
      exact sound
    · simp only [at_,Phase.weight,Phase.charge,Phase.isUnderway,Bool.false_eq_true,reduceCtorEq,if_false,if_true,add_zero] at weighed charged
      rw [charged] at among ⊢
      exact sound_leave sound weighed among
  have after : afterNonce c = .ready ∨ ∃ reply,afterNonce c = .done reply := by
    unfold afterNonce
    split
    · exact .inr ⟨_,rfl⟩
    · split
      · exact .inr ⟨_,rfl⟩
      · exact .inl rfl
  unfold turn
  rw [at_]
  dsimp only
  split
  · exact goes _ w.nonces after
  · split
    · exact goes _ _ after
    · exact goes _ _ (.inr ⟨_,rfl⟩)

theorem ready_own (there : w.calls[k]? = some c) (at_ : c.phase = .ready) (sound : (w.account c.identity).Sound) :
    ((turn w k c verdict).account c.identity).Sound := by
  obtain ⟨underway,rejected,shape,weighed,charged,among⟩ := account_after there (verified c w.clock verdict).1 w.limiter w.nonces
    ((verified c w.clock verdict).2 ++ w.history) rfl rfl
  have turned : turn w k c verdict =
      { w.moved k (verified c w.clock verdict).1 with history := (verified c w.clock verdict).2 ++ w.history } := by
    simp only [turn,at_]
  rw [turned]
  have shape : ({ w.moved k (verified c w.clock verdict).1 with
    history := (verified c w.clock verdict).2 ++ w.history } : World).account c.identity = _ := shape
  rw [shape]
  have rejects : verdict = .invalidCredentials ∨ verdict = .userNotPermitted → Account.Sound
      { w.account c.identity with
        bucket := w.limiter.bucket c.identity,underway,rejected
        period := period c.identity ((verified c w.clock verdict).2 ++ w.history) } := by
    rintro (rfl | rfl) <;>
    · simp only [at_,verified,Phase.weight,Phase.charge,Phase.isUnderway,reduceCtorEq,if_false,if_true,add_zero] at weighed charged
      rw [add_right_cancel weighed,charged] at among ⊢
      have recorded := sound_reject sound among
      simp only [verified,List.singleton_append,period,if_true]
      exact recorded
  cases verdict with
  | invalidCredentials => exact rejects (.inl rfl)
  | userNotPermitted => exact rejects (.inr rfl)
  | verified =>
    simp only [at_,verified,Phase.weight,Phase.charge,Phase.isUnderway,Bool.false_eq_true,reduceCtorEq,if_false,if_true,add_zero] at weighed charged
    rw [charged] at among ⊢
    exact sound_leave sound weighed among
  | backend =>
    simp only [at_,verified,Phase.weight,Phase.charge,Phase.isUnderway,Bool.false_eq_true,reduceCtorEq,if_false,if_true,add_zero] at weighed charged
    rw [charged] at among ⊢
    exact sound_leave sound weighed among

theorem rejected_own (there : w.calls[k]? = some c) (at_ : c.phase = .rejected) (sound : (w.account c.identity).Sound) :
    ((turn w k c verdict).account c.identity).Sound := by
  obtain ⟨underway,rejected,shape,weighed,charged,among⟩ := account_after there (.done .denied)
    (w.limiter.recordFailure c.identity c.stamp) w.nonces w.history rfl rfl
  have turned : turn w k c verdict = { w.moved k (.done .denied) with limiter := w.limiter.recordFailure c.identity c.stamp } := by
    simp only [turn,at_]
  have shape : (turn w k c verdict).account c.identity = _ := turned ▸ shape
  rw [shape,bucket_recordFailure,if_pos rfl]
  simp only [at_,Phase.weight,Phase.charge,Phase.isUnderway,Bool.false_eq_true,reduceCtorEq,if_false,if_true,add_zero] at weighed charged
  exact sound_record sound weighed charged

theorem accepted_own (there : w.calls[k]? = some c) (at_ : c.phase = .accepted) (sound : (w.account c.identity).Sound) :
    ((turn w k c verdict).account c.identity).Sound := by
  obtain ⟨underway,rejected,shape,weighed,charged,among⟩ := account_after there (.done .granted)
    (w.limiter.recordSuccess c.identity) w.nonces (.succeeded c.identity::w.history) rfl rfl
  have turned : turn w k c verdict = { w.moved k (.done .granted) with
      limiter := w.limiter.recordSuccess c.identity,history := .succeeded c.identity::w.history } := by
    simp only [turn,at_]
  have shape : (turn w k c verdict).account c.identity = _ := turned ▸ shape
  rw [shape,bucket_recordSuccess,if_pos rfl]
  simp only [at_,Phase.weight,Phase.charge,Phase.isUnderway,Bool.false_eq_true,reduceCtorEq,if_false,add_zero] at weighed charged
  rw [weighed,charged,period,if_pos rfl]
  exact sound_success sound

theorem turn_own (there : w.calls[k]? = some c) (sound : (w.account c.identity).Sound) (met : InBudget w (.turn k verdict)) :
    ((turn w k c verdict).account c.identity).Sound := by
  cases at_ : c.phase with
  | started => exact started_own there at_ sound met
  | permitted => exact permitted_own there at_ sound
  | ready => exact ready_own there at_ sound
  | rejected => exact rejected_own there at_ sound
  | accepted => exact accepted_own there at_ sound
  | done reply =>
    have still : turn w k c verdict = w := by simp only [turn,at_]
    rw [still]
    exact sound

theorem get_check (apart : other ≠ identity) : Tables.get (limiter.check identity nowMs).1.buckets other =
    Tables.get limiter.buckets other := by
  unfold StepUpRateLimiter.check
  split
  · dsimp only
    split <;> simp [apart]
  · rfl

-- What the turn of a call leaves alone: everything of the other identities.
structure Apart (before after : World) (identity : String) : Prop where
  bucket : Tables.get after.limiter.buckets identity = Tables.get before.limiter.buckets identity
  ceiling : after.limiter.maxFailures = before.limiter.maxFailures
  window : after.limiter.windowMs = before.limiter.windowMs
  clock : after.clock = before.clock
  period : period identity after.history = period identity before.history

theorem turn_apart (w : World) (k : Nat) (c : Call) (verdict : Verdict) (apart : c.identity ≠ identity) : Apart w (turn w k c verdict) identity := by
  unfold turn
  split
  · obtain ⟨ceiling,window⟩ := (check_config : (w.limiter.check c.identity c.stamp).1.maxFailures = _ ∧
      (w.limiter.check c.identity c.stamp).1.windowMs = _)
    have buckets : Tables.get (w.limiter.check c.identity c.stamp).1.buckets identity = _ := get_check apart.symm
    split
    · rename_i answer
      rw [answer] at ceiling window buckets
      exact ⟨buckets,ceiling,window,rfl,rfl⟩
    · rename_i answer
      rw [answer] at ceiling window buckets
      exact ⟨buckets,ceiling,window,rfl,rfl⟩
  · split
    · exact ⟨rfl,rfl,rfl,rfl,rfl⟩
    · split <;> exact ⟨rfl,rfl,rfl,rfl,rfl⟩
  · refine ⟨rfl,rfl,rfl,rfl,?_⟩
    cases verdict <;> simp [verified,period,apart]
  · exact ⟨by simp [StepUpRateLimiter.recordFailure,apart.symm],rfl,rfl,rfl,rfl⟩
  · exact ⟨by simp [StepUpRateLimiter.recordSuccess,apart.symm],rfl,rfl,rfl,by simp [period,apart]⟩
  · exact ⟨rfl,rfl,rfl,rfl,rfl⟩

theorem turn_calls (w : World) (k : Nat) (c : Call) (verdict : Verdict) : (turn w k c verdict).calls = w.calls ∨
    ∃ phase,(turn w k c verdict).calls = (w.moved k phase).calls := by
  unfold turn
  split
  · split <;> exact .inr ⟨_,rfl⟩
  · split
    · exact .inr ⟨_,rfl⟩
    · split <;> exact .inr ⟨_,rfl⟩
  · exact .inr ⟨_,rfl⟩
  · exact .inr ⟨_,rfl⟩
  · exact .inr ⟨_,rfl⟩
  · exact .inl rfl

theorem account_apart (there : w.calls[k]? = some c) (apart : c.identity ≠ identity) :
    (turn w k c verdict).account identity = w.account identity := by
  obtain ⟨bucket,ceiling,window,clock,period_⟩ := turn_apart w k c verdict apart
  have calls : (↑((turn w k c verdict).calls.filterMap (Call.underway identity)) : Multiset Nat) =
      ↑(w.calls.filterMap (Call.underway identity)) ∧
      (↑((turn w k c verdict).calls.filterMap (Call.uncharged identity)) : Multiset Nat) =
      ↑(w.calls.filterMap (Call.uncharged identity)) := by
    rcases turn_calls w k c verdict with same | ⟨phase,same⟩
    · rw [same]
      exact ⟨rfl,rfl⟩
    · rw [same]
      have moved := moved_apart phase there apart
      exact ⟨congrArg Account.underway moved,congrArg Account.rejected moved⟩
  simp only [World.account,StepUpRateLimiter.bucket,bucket,ceiling,window,clock,period_,calls]

structure Sound (w : World) : Prop where
  accounts : ∀ identity,(w.account identity).Sound
  stamps : ∀ c ∈ w.calls,c.stamp + w.limiter.windowMs ≤ u64Max
  buckets : ∀ identity,∀ t ∈ w.limiter.bucket identity,t + w.limiter.windowMs ≤ u64Max

theorem sound_budget (sound : Sound w) : Budget w := fun identity start => (sound.accounts identity).spans start

theorem turn_stamps (stamps : ∀ c ∈ w.calls,c.stamp + w.limiter.windowMs ≤ u64Max) (c : Call) :
    ∀ d ∈ (turn w k c verdict).calls,d.stamp + w.limiter.windowMs ≤ u64Max := by
  intro d member
  rcases turn_calls w k c verdict with same | ⟨phase,same⟩
  · exact stamps d (same ▸ member)
  · rw [same] at member
    obtain ⟨j,there⟩ := List.getElem?_of_mem member
    obtain ⟨old,before,rfl⟩ := Tables.modify_cases there
    have bound := stamps old (List.mem_of_getElem? before)
    split
    · exact bound
    · exact bound

theorem turn_bucket (w : World) (k : Nat) (c : Call) (verdict : Verdict) (identity : String) :
    List.Sublist ((turn w k c verdict).limiter.bucket identity) (w.limiter.bucket identity) ∨
    (c.identity = identity ∧ c.phase = .rejected ∧
      (turn w k c verdict).limiter.bucket identity = w.limiter.bucket identity ++ [c.stamp]) := by
  by_cases apart : c.identity = identity
  swap
  · have same := (turn_apart w k c verdict apart).bucket
    left
    rw [StepUpRateLimiter.bucket,same]
    exact List.Sublist.refl _
  subst apart
  unfold turn
  split
  · have kept : List.Sublist ((w.limiter.check c.identity c.stamp).1.bucket c.identity) (w.limiter.bucket c.identity) := by
      rw [bucket_check,if_pos rfl]
      exact List.filter_sublist
    left
    split
    · rename_i answer
      rwa [answer] at kept
    · rename_i answer
      rwa [answer] at kept
  · left
    split
    · exact List.Sublist.refl _
    · split <;> exact List.Sublist.refl _
  · exact .inl (List.Sublist.refl _)
  · rename_i at_
    exact .inr ⟨rfl,at_,by simp⟩
  · left
    simp
  · exact .inl (List.Sublist.refl _)

theorem step_config (w : World) (a : Action) : (step w a).limiter.maxFailures = w.limiter.maxFailures ∧
    (step w a).limiter.windowMs = w.limiter.windowMs := by
  cases a with
  | tick ms => exact ⟨rfl,rfl⟩
  | call op identity nonce secretDecodes service => exact ⟨rfl,rfl⟩
  | purge age => exact ⟨rfl,rfl⟩
  | turn k verdict =>
    simp only [step]
    split
    · rename_i c there
      obtain ⟨name,different⟩ : ∃ name,c.identity ≠ name := ⟨c.identity ++ "x",by
        intro same
        have lengths := congrArg String.length same
        simp at lengths⟩
      have apart := turn_apart w k c verdict different
      exact ⟨apart.ceiling,apart.window⟩
    · exact ⟨rfl,rfl⟩

theorem step_sound {a : Action} (sound : Sound w) (met : InBudget w a) : Sound (step w a) := by
  cases a with
  | tick ms =>
    refine ⟨fun identity => ?_,sound.stamps,sound.buckets⟩
    exact sound_tick (sound.accounts identity) (Nat.le_add_right w.clock ms)
  | call op identity nonce secretDecodes service =>
    refine ⟨fun other => ?_,?_,sound.buckets⟩
    · have same : (step w (.call op identity nonce secretDecodes service)).account other = w.account other := by
        simp [step,World.account,Call.underway,Call.uncharged,Phase.isUnderway]
      rw [same]
      exact sound.accounts other
    · intro c member
      rcases List.mem_append.mp member with old | new
      · exact sound.stamps c old
      · cases List.mem_singleton.mp new
        exact met
  | purge age =>
    refine ⟨fun identity => ?_,sound.stamps,?_⟩
    · have same : (step w (.purge age)).account identity = { w.account identity with
          bucket := (w.account identity).bucket.filter fun t => w.clock - age - w.limiter.windowMs < t } := by
        simp [step,World.account,kept_bucket]
        exact ⟨rfl,rfl⟩
      rw [same]
      exact sound_prune (sound.accounts identity) _ (met identity)
    · intro identity t member
      simp only [step,bucket_purgeExpired,kept_bucket] at member
      exact sound.buckets identity t (List.mem_of_mem_filter member)
  | turn k verdict =>
    cases there : w.calls[k]? with
    | none =>
      have still : step w (.turn k verdict) = w := by simp only [step,there]
      rw [still]
      exact sound
    | some c =>
      have turned : step w (.turn k verdict) = turn w k c verdict := by simp only [step,there]
      obtain ⟨_,window⟩ := step_config w (.turn k verdict)
      rw [turned] at window ⊢
      refine ⟨fun identity => ?_,?_,?_⟩
      · by_cases apart : c.identity = identity
        · subst apart
          exact turn_own there (sound.accounts _) met
        · rw [account_apart there apart]
          exact sound.accounts identity
      · rw [window]
        exact turn_stamps sound.stamps c
      · intro identity t member
        rw [window]
        rcases turn_bucket w k c verdict identity with fewer | ⟨_,_,more⟩
        · exact sound.buckets identity t (fewer.subset member)
        · rw [more] at member
          rcases List.mem_append.mp member with old | new
          · exact sound.buckets identity t old
          · rw [List.mem_singleton.mp new]
            exact sound.stamps c (List.mem_of_getElem? there)

theorem fresh_sound (limiter : StepUpRateLimiter) (clock ttlMs : Nat) : Sound (World.fresh limiter clock ttlMs) where
  accounts identity :=
    { among := le_rfl
      charged := by simp [World.account,World.fresh,StepUpRateLimiter.bucket]
      tracked := by simp [Account.recent,World.account,World.fresh,period]
      past := fun e member => by cases member
      spans := fun start => by simp [Account.span,World.account,World.fresh,period] }
  stamps c member := by cases member
  buckets identity t member := by
    have none_ : (World.fresh limiter clock ttlMs).limiter.bucket identity = [] := by simp [World.fresh,StepUpRateLimiter.bucket]
    rw [none_] at member
    cases member

-- A check that answers Locked names the instant from which a bucket that has got no failure since
-- is below the ceiling.
theorem locked_until (sound : Sound w) (locked : (w.limiter.check identity t).2 = .locked retry) {later : StepUpRateLimiter}
    (ceiling : later.maxFailures = w.limiter.maxFailures) (window : later.windowMs = w.limiter.windowMs)
    (fewer : List.Sublist (later.bucket identity) (w.limiter.bucket identity)) (waited : t + retry ≤ u) :
    ∃ n,(later.check identity u).2 = .permitted n := by
  have full : w.limiter.maxFailures ≤ (w.limiter.kept identity t).length ∧
      retry = saturatingAdd ((w.limiter.kept identity t).min?.getD 0) w.limiter.windowMs - t := by
    rw [check_answer] at locked
    split at locked
    · rename_i full
      exact ⟨le_trans full.2 (Nat.mod_le _ _),(RateLimitOutcome.locked.inj locked).symm⟩
    · cases locked
  obtain ⟨full,after⟩ := full
  have charged : (w.limiter.bucket identity).length ≤ w.limiter.maxFailures :=
    le_trans (Nat.le_add_right _ _) (sound.accounts identity).charged
  have some_ : w.limiter.kept identity t ≠ [] := by
    intro none_
    rw [none_] at full
    exact absurd full (Nat.not_le.mpr w.limiter.positive)
  obtain ⟨earliest,least⟩ := Option.isSome_iff_exists.mp (List.isSome_min?_of_ne_nil some_)
  have member := List.min?_mem least
  obtain ⟨inBucket,young⟩ := List.mem_filter.mp member
  have bound := sound.buckets identity earliest inBucket
  rw [least,Option.getD_some,saturatingAdd,Nat.min_eq_left bound] at after
  have rest : List.Sublist (later.kept identity u) ((w.limiter.kept identity t).filter (earliest < ·)) := by
    have narrowed : List.Sublist (later.kept identity u) ((w.limiter.bucket identity).filter fun s => u - w.limiter.windowMs < s) := by
      rw [kept_bucket,window]
      exact fewer.filter _
    refine narrowed.trans ?_
    rw [kept_bucket,List.filter_filter]
    apply List.monotone_filter_right
    intro s held
    simp only [decide_eq_true_eq,Bool.and_eq_true] at held young ⊢
    omega
  have smaller : ((w.limiter.kept identity t).filter (earliest < ·)).length < (w.limiter.kept identity t).length :=
    List.length_filter_lt_length_iff_exists.mpr ⟨earliest,member,by simp⟩
  have within : (w.limiter.kept identity t).length ≤ w.limiter.maxFailures := le_trans (List.length_filter_le _ _) charged
  have shorter := rest.length_le
  exact (check_permitted (by omega)).mpr (by omega)

theorem step_bucket {a : Action} (calm : ¬ Records w identity a) :
    List.Sublist ((step w a).limiter.bucket identity) (w.limiter.bucket identity) := by
  cases a with
  | tick ms => exact List.Sublist.refl _
  | call op identity nonce secretDecodes service => exact List.Sublist.refl _
  | purge age =>
    simp only [step,bucket_purgeExpired,kept_bucket]
    exact List.filter_sublist
  | turn k verdict =>
    cases there : w.calls[k]? with
    | none =>
      simp only [step,there]
      exact List.Sublist.refl _
    | some c =>
      simp only [step,there]
      rcases turn_bucket w k c verdict identity with fewer | ⟨own,at_,_⟩
      · exact fewer
      · exact absurd ⟨c,there,own,at_⟩ calm

theorem run_bucket {actions : List Action} (calm : Guarded step (fun w a => ¬ Records w identity a) w actions) :
    (run step w actions).limiter.maxFailures = w.limiter.maxFailures ∧ (run step w actions).limiter.windowMs = w.limiter.windowMs ∧
      List.Sublist ((run step w actions).limiter.bucket identity) (w.limiter.bucket identity) := by
  induction actions generalizing w with
  | nil => exact ⟨rfl,rfl,List.Sublist.refl _⟩
  | cons a rest ih =>
    obtain ⟨ceiling,window,fewer⟩ := ih calm.2
    obtain ⟨same,alike⟩ := step_config w a
    exact ⟨ceiling.trans same,window.trans alike,fewer.trans (step_bucket calm.1)⟩

theorem budget_throughout (met : Guarded step InBudget (World.fresh limiter clock ttlMs) actions) :
    Throughout step Budget (World.fresh limiter clock ttlMs) actions ∧ Sound (run step (World.fresh limiter clock ttlMs) actions) := by
  have sound : Throughout step Sound (World.fresh limiter clock ttlMs) actions :=
    guarded_keeps (fun _ _ sound met => step_sound sound met) (fresh_sound limiter clock ttlMs) met
  exact ⟨throughout_prefixes.mpr fun k => sound_budget (throughout_prefixes.mp sound k),throughout_final sound⟩

theorem answer_apart (there : w.calls[k]? = some c) (apart : c.identity ≠ identity) (t : Nat) :
    ((step w (.turn k verdict)).limiter.check identity t).2 = (w.limiter.check identity t).2 := by
  have turned : step w (.turn k verdict) = turn w k c verdict := by simp only [step,there]
  obtain ⟨buckets,ceiling,window,_,_⟩ := turn_apart w k c verdict apart
  rw [turned]
  exact check_congr buckets ceiling window

theorem budget_kept (limiter : StepUpRateLimiter) (clock ttlMs : Nat) (actions : List Action)
    (met : Guarded step InBudget (World.fresh limiter clock ttlMs) actions) :
    Throughout step Budget (World.fresh limiter clock ttlMs) actions ∧
    (∀ w k verdict c identity t,w.calls[k]? = some c → c.identity ≠ identity →
      ((step w (.turn k verdict)).limiter.check identity t).2 = (w.limiter.check identity t).2) ∧
    ∀ before between after,actions = before ++ between ++ after → ∀ identity t retry,
      ((run step (World.fresh limiter clock ttlMs) before).limiter.check identity t).2 = .locked retry →
      Guarded step (fun w a => ¬ Records w identity a) (run step (World.fresh limiter clock ttlMs) before) between →
      ∀ u,t + retry ≤ u → ∃ n,((run step (World.fresh limiter clock ttlMs) (before ++ between)).limiter.check identity u).2 = .permitted n := by
  refine ⟨(budget_throughout met).1,fun w k verdict c identity t there apart => answer_apart there apart t,?_⟩
  intro before between after shape identity t retry locked calm u waited
  rw [shape,List.append_assoc,guarded_append] at met
  obtain ⟨ceiling,window,fewer⟩ := run_bucket calm
  rw [run_append]
  exact locked_until (budget_throughout met.1).2 locked ceiling window fewer waited

def attempts (n : Nat) : List Action := List.replicate n (.call .stepUpAuthVerify "device" none true true)
def turns (n : Nat) : List Action := (List.range n).map fun k => .turn k .invalidCredentials
def guess (k : Nat) : List Action := .call .pairAuthenticate "device" none true true::List.replicate 4 (.turn k .invalidCredentials)

theorem period_absent (absent : ∀ e ∈ history,Event.identity e ≠ identity) : period identity history = [] := by
  induction history with
  | nil => rfl
  | cons e rest ih =>
    have other := absent e List.mem_cons_self
    have tail := ih fun e member => absent e (List.mem_cons_of_mem _ member)
    cases e with
    | rejected name stamp at_ => exact (if_neg other).trans tail
    | succeeded name => exact (if_neg other).trans tail

instance agedDecidable (w : World) (identity : String) (stamp : Nat) : Decidable (Aged w identity stamp) :=
  inferInstanceAs (Decidable (∀ e ∈ period identity w.history,e.1 ≤ stamp - w.limiter.windowMs → e.2 + w.limiter.windowMs ≤ w.clock))

theorem aged_all (w : World) (stamp : Nat) : (∀ identity,Aged w identity stamp) ↔ ∀ e ∈ w.history,Aged w e.identity stamp := by
  constructor
  · exact fun held e _ => held e.identity
  · intro held identity
    by_cases present : ∃ e ∈ w.history,Event.identity e = identity
    · obtain ⟨e,member,rfl⟩ := present
      exact held e member
    · have none_ : period identity w.history = [] := by
        apply period_absent
        intro e member same
        exact present ⟨e,member,same⟩
      intro e member
      rw [none_] at member
      cases member

instance inBudgetDecidable (w : World) : (a : Action) → Decidable (InBudget w a)
  | .tick _ => .isTrue trivial
  | .call .. => inferInstanceAs (Decidable (w.clock + w.limiter.windowMs ≤ u64Max))
  | .turn k _ => inferInstanceAs (Decidable (∀ c ∈ w.calls[k]?,c.phase = .started → Aged w c.identity c.stamp ∧
    ((w.limiter.kept c.identity c.stamp).length < w.limiter.maxFailures →
      (w.limiter.kept c.identity c.stamp).length + (w.calls.filterMap (Call.underway c.identity)).length < w.limiter.maxFailures)))
  | .purge age => decidable_of_iff _ (aged_all w (w.clock - age)).symm

-- One guess after the other, each charged before the next one starts.
theorem fifth_locks : Throughout step Budget (World.fresh .withDefaults 1000 300000) (guess 0 ++ guess 1 ++ guess 2 ++ guess 3 ++ guess 4 ++ guess 5) ∧
    ((run step (World.fresh .withDefaults 1000 300000) (guess 0 ++ guess 1 ++ guess 2 ++ guess 3 ++ guess 4 ++ guess 5)).calls.map (·.phase)) =
      List.replicate 5 (Phase.done .denied) ++ [Phase.done (.rateLimited 900000)] :=
  ⟨(budget_kept .withDefaults 1000 300000 (guess 0 ++ guess 1 ++ guess 2 ++ guess 3 ++ guess 4 ++ guess 5) (by decide)).1,by decide⟩

-- Six calls are all checked before the first one is charged.
theorem sixth_verified : ¬ Throughout step Budget (World.fresh .withDefaults 1000 300000) (attempts 6 ++ turns 6 ++ turns 6 ++ turns 6) ∧
    ¬ Throughout step Budget (World.fresh .withDefaults 1000 300000)
      (([.call .stepUpAuthVerify "device" none true true,.turn 0 .invalidCredentials,.turn 0 .invalidCredentials,.tick 899999,
        .turn 0 .invalidCredentials,.turn 0 .invalidCredentials,.tick 1] : List Action) ++ guess 1 ++ guess 2 ++ guess 3 ++ guess 4 ++ guess 5) := by
  constructor
  · intro held
    have spent := throughout_final held "device" 0
    revert spent
    decide
  · intro held
    have spent := throughout_final held "device" 900999
    revert spent
    decide

end EvoCore.StepUp
