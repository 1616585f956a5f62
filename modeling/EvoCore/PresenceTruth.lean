import EvoCore.Presence

namespace EvoCore.Presence
open DomainEntries DomainProjection Runs Tables Std

variable {w after : Correlator} {view : DomainStateView} {deviceId peer : String} {presence : PeerPresence}
  {row : String × TrustProjection} {rows : List (String × TrustProjection)} {nowMs : String → Nat}

@[simp] theorem setPresence_peers : (w.setPresence deviceId presence).peers = w.peers.insert deviceId presence := by
  unfold Correlator.setPresence
  dsimp only
  split <;> rfl

theorem setPresence_rest : (w.setPresence deviceId presence).projection = w.projection ∧
    (w.setPresence deviceId presence).evaluations = w.evaluations ∧
    (w.setPresence deviceId presence).reconciling = w.reconciling ∧ (w.setPresence deviceId presence).behind = w.behind := by
  unfold Correlator.setPresence
  dsimp only
  split <;> exact ⟨rfl,rfl,rfl,rfl⟩

theorem setPresence_changes : (w.setPresence deviceId presence).changes peer = w.changes peer ++
    if peer = deviceId ∧ w.shown deviceId ≠ some presence.state then [(w.current deviceId,presence.state.asStr)] else [] := by
  unfold Correlator.setPresence
  dsimp only
  split
  · rename_i same
    rw [if_neg (fun both => both.2 same),List.append_nil]
    rfl
  · rename_i same
    have same : w.shown deviceId ≠ some presence.state := same
    by_cases own : peer = deviceId
    · subst own
      rw [if_pos ⟨rfl,same⟩]
      simp [Correlator.changes,Correlator.emitPresenceChanged,Happening.changeOf,Correlator.current,Correlator.shown]
    · rw [if_neg (fun both => own both.1),List.append_nil]
      simp [Correlator.changes,Correlator.emitPresenceChanged,Happening.changeOf,Ne.symm own]

theorem shown_setPresence : (w.setPresence deviceId presence).shown peer =
    if peer = deviceId then some presence.state else w.shown peer := by
  simp only [Correlator.shown,setPresence_peers,get_insert]
  split <;> rfl

theorem trail_snoc {origin final : String} {changes : List (String × String)} {change : String × String}
    (trail : Trail origin changes change.1) (ends : change.2 = final) : Trail origin (changes ++ [change]) final := by
  induction changes generalizing origin with
  | nil => exact ⟨trail.symm,ends⟩
  | cons first rest ih => exact ⟨trail.1,ih trail.2⟩

theorem trail_split {origin final : String} {first second : List (String × String)} (trail : Trail origin (first ++ second) final) :
    ∃ middle,Trail origin first middle ∧ Trail middle second final := by
  induction first generalizing origin with
  | nil => exact ⟨origin,rfl,trail⟩
  | cons change rest ih =>
    obtain ⟨middle,before,behind⟩ := ih trail.2
    exact ⟨middle,⟨trail.1,before⟩,behind⟩

-- The happenings of a peer, and behind them what waits to be emitted, lead to the state it is shown with.
def Trailing (w : Correlator) : Prop := ∀ deviceId,Trail "absent" (w.changes deviceId ++ w.unpublished deviceId) (w.current deviceId)

theorem trailing_chained (trailing : Trailing w) : Chained w := by
  intro deviceId
  obtain ⟨middle,before,_⟩ := trail_split (trailing deviceId)
  refine ⟨⟨middle,before⟩,fun quiet => ?_⟩
  simpa [quiet] using trailing deviceId

theorem setPresence_trailing (trailing : Trailing w)
    (clear : w.shown deviceId ≠ some presence.state → w.unpublished deviceId = []) : Trailing (w.setPresence deviceId presence) := by
  intro peer
  have waits : (w.setPresence deviceId presence).unpublished peer = w.unpublished peer := by
    simp only [Correlator.unpublished,setPresence_rest.2.1]
  have now : (w.setPresence deviceId presence).current peer =
      if peer = deviceId then presence.state.asStr else w.current peer := by
    simp only [Correlator.current,shown_setPresence]
    split <;> rfl
  rw [setPresence_changes,waits,now]
  by_cases own : peer = deviceId
  · subst own
    by_cases same : w.shown peer = some presence.state
    · have kept : w.current peer = presence.state.asStr := by simp [Correlator.current,same]
      simpa [same,kept] using trailing peer
    · have quiet := clear same
      have before := trailing peer
      rw [quiet,List.append_nil] at before
      rw [if_pos ⟨rfl,same⟩,if_pos rfl,quiet,List.append_nil]
      exact trail_snoc before rfl
  · simpa [own] using trailing peer

-- A row of the projection touches its own peer, and no peer has two.
def Apart (rows : List (String × TrustProjection)) : Prop := (rows.map (·.1)).Nodup

theorem trust_apart (view : DomainStateView) : Apart view.trust.toList := by
  unfold Apart
  rw [List.Nodup,List.pairwise_map]
  refine ExtTreeMap.distinct_keys_toList.imp ?_
  intro a b apart same
  exact apart (by rw [same]; exact ReflCmp.compare_self)

def reconcileRows (w : Correlator) (nowMs : String → Nat) (rows : List (String × TrustProjection)) : Correlator :=
  rows.foldl (fun w row => w.reconcileRow nowMs row) w

theorem rows_other (outside : peer ∉ rows.map (·.1)) : get (reconcileRows w nowMs rows).peers peer = get w.peers peer := by
  induction rows generalizing w with
  | nil => rfl
  | cons first rest ih =>
    simp only [List.map_cons,List.mem_cons,not_or] at outside
    rw [reconcileRows,List.foldl_cons]
    refine (ih outside.2).trans ?_
    simp [Correlator.reconcileRow,outside.1]

theorem rows_own (apart : Apart rows) (member : row ∈ rows) : get (reconcileRows w nowMs rows).peers row.1 =
    some (reconciled (get w.peers row.1) row.1 row.2.state (nowMs row.1)) := by
  induction rows generalizing w with
  | nil => cases member
  | cons first rest ih =>
    obtain ⟨outside,later⟩ := List.nodup_cons.mp apart
    rw [reconcileRows,List.foldl_cons]
    rcases List.mem_cons.mp member with rfl | behind
    · refine (rows_other outside).trans ?_
      simp [Correlator.reconcileRow]
    · have other : row.1 ≠ first.1 := fun same => outside (List.mem_map.mpr ⟨row,behind,same⟩)
      refine (ih later behind).trans ?_
      simp [Correlator.reconcileRow,other]

theorem rows_rest : (reconcileRows w nowMs rows).projection = w.projection ∧ (reconcileRows w nowMs rows).evaluations = w.evaluations ∧
    (reconcileRows w nowMs rows).reconciling = w.reconciling ∧ (reconcileRows w nowMs rows).behind = w.behind := by
  induction rows generalizing w with
  | nil => exact ⟨rfl,rfl,rfl,rfl⟩
  | cons first rest ih =>
    obtain ⟨projection,evaluations,reconciling,behind⟩ := @ih (w.reconcileRow nowMs first)
    obtain ⟨projection_,evaluations_,reconciling_,behind_⟩ := @setPresence_rest w first.1
      (reconciled (get w.peers first.1) first.1 first.2.state (nowMs first.1))
    exact ⟨projection.trans projection_,evaluations.trans evaluations_,reconciling.trans reconciling_,behind.trans behind_⟩

theorem rows_trailing (trailing : Trailing w) (apart : Apart rows) (clear : ∀ row ∈ rows,
    w.shown row.1 ≠ some (reconciled (get w.peers row.1) row.1 row.2.state 0).state → w.unpublished row.1 = []) :
    Trailing (reconcileRows w nowMs rows) := by
  induction rows generalizing w with
  | nil => exact trailing
  | cons first rest ih =>
    obtain ⟨outside,later⟩ := List.nodup_cons.mp apart
    have put : Trailing (w.reconcileRow nowMs first) :=
      setPresence_trailing trailing (clear first List.mem_cons_self)
    refine ih put later ?_
    intro row member changes
    have other : row.1 ≠ first.1 := fun same => outside (List.mem_map.mpr ⟨row,member,same⟩)
    have waits : (w.reconcileRow nowMs first).unpublished row.1 = w.unpublished row.1 := by
      simp only [Correlator.unpublished,Correlator.reconcileRow,setPresence_rest.2.1]
    rw [waits]
    apply clear row (List.mem_cons_of_mem _ member)
    simpa [Correlator.shown,Correlator.reconcileRow,other] using changes

theorem rows_shown (view : DomainStateView) (nowMs : String → Nat) (w : Correlator) (peer : String) :
    get (w.reconcileWithChain view nowMs).peers peer =
      match view.trust[peer]? with
      | some row => some (reconciled (get w.peers peer) peer row.state (nowMs peer))
      | none => get w.peers peer := by
  cases there : view.trust[peer]? with
  | some row =>
    have member : (peer,row) ∈ view.trust.toList := ExtTreeMap.mem_toList_iff_getElem?_eq_some.mpr there
    exact rows_own (trust_apart view) member
  | none =>
    refine rows_other ?_
    intro inside
    obtain ⟨⟨key,row⟩,member,rfl⟩ := List.mem_map.mp inside
    have found := ExtTreeMap.mem_toList_iff_getElem?_eq_some.mp member
    rw [there] at found
    cases found

theorem filterMap_key {α : Type} (entries : List (Sigma fun _ : String => PeerPresence)) (apart : entries.NodupKeys)
    (peer : String) (f : PeerPresence → Option α) :
    entries.filterMap (fun e => if e.1 = peer then f e.2 else none) = ((entries.dlookup peer).bind f).toList := by
  induction entries with
  | nil => rfl
  | cons first rest ih =>
    obtain ⟨outside,later⟩ := List.nodupKeys_cons.mp apart
    obtain ⟨key,p⟩ := first
    by_cases own : key = peer
    · subst own
      have none_ : rest.dlookup key = none := List.dlookup_eq_none.mpr outside
      have others := ih later
      rw [none_] at others
      cases shown : f p with
      | none => simp [others,shown]
      | some a => simp [others,shown]
    · rw [List.filterMap_cons,if_neg own,List.dlookup_cons_ne _ _ (Ne.symm own)]
      exact ih later

theorem changesIn_append (first second : List Evaluation) (peer : String) :
    changesIn (first ++ second) peer = changesIn first peer ++ changesIn second peer := by
  simp [changesIn]

theorem changesIn_cons (evaluation : Evaluation) (rest : List Evaluation) (peer : String) :
    changesIn (evaluation::rest) peer = evaluation.transitions.filterMap (·.changeOf peer) ++ changesIn rest peer := by
  simp [changesIn]

theorem transitionsAt_peer (w : Correlator) (nowMs : Nat) (peer : String) :
    (w.transitionsAt nowMs).filterMap (·.changeOf peer) = ((get w.peers peer).bind fun p =>
      if w.config.evaluated nowMs p = p.state then none else some (p.state.asStr,(w.config.evaluated nowMs p).asStr)).toList := by
  rw [Tables.get,AList.lookup,← filterMap_key w.peers.entries w.peers.nodupKeys peer,Correlator.transitionsAt,List.filterMap_filterMap]
  apply List.filterMap_congr
  intro e _
  by_cases own : e.1 = peer <;> by_cases same : w.config.evaluated nowMs e.2 = e.2.state <;>
    simp [own,same,Transition.changeOf]

theorem evaluate_peers (nowMs nowInstant : Nat) (peer : String) : get (w.evaluateTransitions nowMs nowInstant).peers peer =
    (get w.peers peer).map fun p => if w.config.evaluated nowMs p = p.state then p
      else {p with state := w.config.evaluated nowMs p,lastTransitionAtMs := nowMs} := by
  simp [Correlator.evaluateTransitions]

theorem evaluate_trailing (trailing : Trailing w) (nowMs nowInstant : Nat) : Trailing (w.evaluateTransitions nowMs nowInstant) := by
  intro peer
  have before := trailing peer
  have waits : (w.evaluateTransitions nowMs nowInstant).unpublished peer = w.unpublished peer ++
      (w.transitionsAt nowMs).filterMap (·.changeOf peer) := by
    simp only [Correlator.unpublished,Correlator.evaluateTransitions,changesIn_append]
    simp [changesIn]
  have emitted : (w.evaluateTransitions nowMs nowInstant).changes peer = w.changes peer := rfl
  rw [emitted,waits,transitionsAt_peer,← List.append_assoc]
  simp only [Correlator.current,Correlator.shown,evaluate_peers]
  cases there : get w.peers peer with
  | none => simpa [Correlator.current,Correlator.shown,there] using before
  | some p =>
    have current : w.current peer = p.state.asStr := by simp [Correlator.current,Correlator.shown,there]
    rw [current] at before
    by_cases same : w.config.evaluated nowMs p = p.state
    · simpa [same] using before
    · simp only [Option.bind_some,same,if_false,Option.toList_some,Option.map_some,Option.getD_some]
      exact trail_snoc before rfl

theorem check_rest (newlyAbsent : List String) : (w.checkMassEvent newlyAbsent).evaluations = w.evaluations ∧
    (w.checkMassEvent newlyAbsent).peers = w.peers ∧ (w.checkMassEvent newlyAbsent).projection = w.projection ∧
    (w.checkMassEvent newlyAbsent).reconciling = w.reconciling ∧ (w.checkMassEvent newlyAbsent).behind = w.behind ∧
    ∀ peer,(w.checkMassEvent newlyAbsent).changes peer = w.changes peer := by
  unfold Correlator.checkMassEvent
  split
  · exact ⟨rfl,rfl,rfl,rfl,rfl,fun _ => rfl⟩
  · split
    · refine ⟨rfl,rfl,rfl,rfl,rfl,fun peer => ?_⟩
      simp [Correlator.changes,Happening.changeOf]
    · exact ⟨rfl,rfl,rfl,rfl,rfl,fun _ => rfl⟩

theorem publish_rest (w : Correlator) (i : Nat) : (w.publish i).peers = w.peers ∧ (w.publish i).projection = w.projection ∧
    (w.publish i).reconciling = w.reconciling ∧ (w.publish i).behind = w.behind := by
  unfold Correlator.publish
  split
  · exact ⟨rfl,rfl,rfl,rfl⟩
  · obtain ⟨_,peers,projection,reconciling,behind,_⟩ := check_rest (w := {w with evaluations := w.evaluations.eraseIdx i}) _
    exact ⟨peers,projection,reconciling,behind⟩
  · exact ⟨rfl,rfl,rfl,rfl⟩

theorem publish_trailing (trailing : Trailing w) (inOrder : InOrder w (.publish i)) : Trailing (w.publish i) := by
  intro peer
  have before := trailing peer
  have current : (w.publish i).current peer = w.current peer := by
    simp only [Correlator.current,Correlator.shown,(publish_rest w i).1]
  rw [current]
  unfold Correlator.publish
  cases there : w.evaluations[i]? with
  | none => exact before
  | some evaluation =>
    obtain ⟨inside,same⟩ := List.getElem?_eq_some_iff.mp there
    have parts : w.evaluations = w.evaluations.take i ++ evaluation::w.evaluations.drop (i+1) := by
      rw [← same,List.getElem_cons_drop,List.take_append_drop]
    have waits : w.unpublished peer = changesIn (w.evaluations.take i) peer ++
        (evaluation.transitions.filterMap (·.changeOf peer) ++ changesIn (w.evaluations.drop (i+1)) peer) := by
      rw [Correlator.unpublished,parts,changesIn_append,changesIn_cons,← parts]
    obtain ⟨transitions,newlyAbsent⟩ := evaluation
    cases transitions with
    | nil =>
      obtain ⟨evaluations,_,_,_,_,changes⟩ := check_rest (w := {w with evaluations := w.evaluations.eraseIdx i}) newlyAbsent
      simp only [Correlator.unpublished]
      rw [changes,evaluations]
      simp only [List.eraseIdx_eq_take_drop_succ,changesIn_append]
      have emitted : ({w with evaluations := w.evaluations.take i ++ w.evaluations.drop (i+1)} : Correlator).changes peer =
          w.changes peer := rfl
      rw [emitted]
      simpa [waits] using before
    | cons t rest =>
      simp only [Correlator.emitPresenceChanged,Correlator.unpublished,List.set_eq_take_append_cons_drop,inside,if_true,
        changesIn_append,changesIn_cons]
      by_cases own : t.deviceId = peer
      · subst own
        have first := inOrder t rest newlyAbsent there
        rw [first,List.nil_append]
        simpa [Correlator.changes,Happening.changeOf,Transition.changeOf,waits,first] using before
      · simpa [Correlator.changes,Happening.changeOf,Transition.changeOf,waits,own] using before

theorem step_trailing (w : Correlator) (event : Event) (trailing : Trailing w) (inOrder : InOrder w event) : Trailing (w.step event) := by
  cases event with
  | chain projection => exact trailing
  | reconcile => exact trailing
  | reconcileLock i nowMs =>
    simp only [Correlator.step]
    cases there : w.reconciling[i]? with
    | none => exact trailing
    | some view =>
      refine rows_trailing (w := {w with reconciling := w.reconciling.eraseIdx i}) trailing (trust_apart view) ?_
      intro row member changes
      exact inOrder view there row.1 row.2 (ExtTreeMap.mem_toList_iff_getElem?_eq_some.mp member) changes
  | announce deviceId nowMs => exact setPresence_trailing trailing inOrder
  | evaluate nowMs nowInstant => exact evaluate_trailing trailing nowMs nowInstant
  | publish i => exact publish_trailing trailing inOrder

theorem new_trailing (config : PresenceCorrelatorConfig) (projection : DomainStateView) : Trailing (.new config projection) := by
  intro peer
  rfl

-- Somebody has still to reconcile, a reconcile waits with the projection of now, or nothing is left to do.
def Reconciling (w : Correlator) : Prop := w.behind = true ∨ w.projection ∈ w.reconciling ∨
  ∀ deviceId,w.shown deviceId = some .discarded ↔ Discarded w.projection deviceId

theorem reconciling_agrees (reconciling : Reconciling w) : Agrees w := by
  intro caught idle
  rcases reconciling with behind | waits | agrees
  · rw [caught] at behind
    cases behind
  · rw [idle] at waits
    cases waits
  · exact agrees

theorem discarded_row (view : DomainStateView) : Discarded view peer ↔ ∃ row,view.trust[peer]? = some row ∧ row.state = .discarded := by
  simp [Discarded]

theorem reconciled_shown (view : DomainStateView) (nowMs : String → Nat) (w : Correlator) (peer : String) :
    (w.reconcileWithChain view nowMs).shown peer = some .discarded ↔ Discarded view peer ∨ w.shown peer = some .discarded := by
  rw [discarded_row]
  simp only [Correlator.shown,rows_shown]
  cases there : view.trust[peer]? with
  | none => simp
  | some row =>
    cases trust : row.state with
    | discarded => simp [reconciled,trust]
    | admitted =>
      cases existing : get w.peers peer with
      | none => simp [reconciled,trust]
      | some p => simp [reconciled,trust]

theorem trustOf_discarded (w : Correlator) (deviceId : String) : w.trustOf deviceId = .discarded ↔ Discarded w.projection deviceId := by
  unfold Correlator.trustOf Discarded
  cases (w.projection.trust[deviceId]?).map (·.state) with
  | none => simp
  | some state => simp

theorem stateAfter_other (config : PresenceCorrelatorConfig) (nowMs : Nat) (p : PeerPresence) : config.stateAfter nowMs p ≠ .discarded := by
  unfold PresenceCorrelatorConfig.stateAfter
  dsimp only
  split
  · simp
  · split
    · simp
    · split <;> simp

theorem evaluate_shown (w : Correlator) (nowMs nowInstant : Nat) (peer : String) :
    (w.evaluateTransitions nowMs nowInstant).shown peer = some .discarded ↔ w.shown peer = some .discarded := by
  simp only [Correlator.shown,evaluate_peers]
  cases get w.peers peer with
  | none => rfl
  | some p =>
    have evaluated : w.config.evaluated nowMs p = .discarded ↔ p.state = .discarded := by
      unfold PresenceCorrelatorConfig.evaluated
      split
      · simp [*]
      · simp [*,stateAfter_other]
    by_cases same : w.config.evaluated nowMs p = p.state
    · simp [same]
    · simp [same,evaluated]

theorem step_reconciling (w : Correlator) (event : Event) (reconciling : Reconciling w) (upToDate : UpToDate w event) :
    Reconciling (w.step event) := by
  cases event with
  | chain projection => exact .inl rfl
  | reconcile => exact .inr (.inl (List.mem_append_right _ (List.mem_singleton_self _)))
  | reconcileLock i nowMs =>
    simp only [Correlator.step]
    cases there : w.reconciling[i]? with
    | none => exact reconciling
    | some view =>
      obtain ⟨projection,_,waiting,behind⟩ := @rows_rest {w with reconciling := w.reconciling.eraseIdx i} view.trust.toList nowMs
      have before := upToDate view there
      have shown : ∀ peer,({w with reconciling := w.reconciling.eraseIdx i} : Correlator).shown peer = w.shown peer := fun _ => rfl
      have projection_ : (Correlator.reconcileWithChain {w with reconciling := w.reconciling.eraseIdx i} view nowMs).projection =
          w.projection := projection
      -- Nobody but the discarded is shown so; where the view is the projection of now, all of them are.
      have sound : ∀ peer,w.shown peer = some .discarded ∨ Discarded view peer → Discarded w.projection peer := by
        intro peer shown_
        by_contra kept
        rcases shown_ with shown_ | listed
        · exact (before peer kept).2 shown_
        · exact (before peer kept).1 listed
      by_cases now : view = w.projection
      · refine .inr (.inr fun peer => ?_)
        rw [reconciled_shown,shown,projection_]
        refine ⟨fun either => sound peer either.symm,fun listed => .inl (by rw [now]; exact listed)⟩
      · rcases reconciling with late | waits | agrees
        · exact .inl (behind.trans late)
        · refine .inr (.inl ?_)
          rw [projection_]
          have kept : w.projection ∈ w.reconciling.eraseIdx i := by
            obtain ⟨k,place⟩ := List.mem_iff_getElem?.mp waits
            refine List.mem_eraseIdx_iff_getElem?.mpr ⟨k,?_,place⟩
            rintro rfl
            exact now (Option.some.inj (there.symm.trans place))
          exact waiting ▸ kept
        · refine .inr (.inr fun peer => ?_)
          rw [reconciled_shown,shown,projection_]
          exact ⟨fun either => sound peer either.symm,fun listed => .inr ((agrees peer).mpr listed)⟩
  | announce deviceId nowMs =>
    obtain ⟨projection,_,waiting,behind⟩ := @setPresence_rest w deviceId (announced (w.trustOf deviceId) deviceId nowMs)
    rcases reconciling with late | waits | agrees
    · exact .inl (behind.trans late)
    · refine .inr (.inl ?_)
      simp only [Correlator.step,Correlator.observeAnnounce,projection,waiting]
      exact waits
    · refine .inr (.inr fun peer => ?_)
      simp only [Correlator.step,Correlator.observeAnnounce,shown_setPresence,projection]
      by_cases own : peer = deviceId
      · rw [if_pos own,own,← trustOf_discarded]
        by_cases gone : w.trustOf deviceId = .discarded <;> simp [announced,gone]
      · rw [if_neg own]
        exact agrees peer
  | evaluate nowMs nowInstant =>
    rcases reconciling with late | waits | agrees
    · exact .inl late
    · exact .inr (.inl waits)
    · exact .inr (.inr fun peer => (evaluate_shown w nowMs nowInstant peer).trans (agrees peer))
  | publish i =>
    obtain ⟨peers,projection,waiting,behind⟩ := publish_rest w i
    simp only [Correlator.step,Reconciling,Correlator.shown,peers,projection,waiting,behind]
    exact reconciling

theorem new_reconciling (config : PresenceCorrelatorConfig) (projection : DomainStateView) : Reconciling (.new config projection) := .inl rfl

theorem put_stamped {before : PeerPresence} {now : Nat} {state : PresenceState} :
    (before.lastTransitionAtMs ≠ now → before.state ≠ state) ↔ before.state ≠ state ∨ before.lastTransitionAtMs = now := by
  constructor
  · intro moves
    by_cases same : before.lastTransitionAtMs = now
    · exact .inr same
    · exact .inl (moves same)
  · rintro (changes | same) differs
    · exact changes
    · exact absurd same differs

theorem stamped_anew (w : Correlator) (event : Event) : Stamped w event ↔ Anew w event := by
  have still : (w.step event).peers = w.peers → Stamped w event := by
    intro same peer before after there found differs
    rw [same,there] at found
    cases found
    exact absurd rfl differs
  cases event with
  | chain projection => exact iff_of_true (still rfl) trivial
  | reconcile => exact iff_of_true (still rfl) trivial
  | publish i => exact iff_of_true (still (publish_rest w i).1) trivial
  | evaluate nowMs nowInstant =>
    refine iff_of_true ?_ trivial
    intro peer before after there found differs
    simp only [Correlator.step,evaluate_peers,there,Option.map_some,Option.some.injEq] at found
    subst found
    split at differs
    · exact absurd rfl differs
    · rename_i changes
      rw [if_neg changes]
      exact Ne.symm changes
  | announce deviceId nowMs =>
    simp only [Stamped,Anew,Correlator.step,Correlator.observeAnnounce,setPresence_peers,get_insert]
    constructor
    · intro stamped p there
      exact put_stamped.mp (stamped deviceId p _ there (if_pos rfl))
    · intro anew peer before after there found
      split at found
      · rename_i own
        subst own
        cases found
        exact put_stamped.mpr (anew before there)
      · rw [there] at found
        cases found
        exact fun differs => absurd rfl differs
  | reconcileLock i nowMs =>
    simp only [Stamped,Anew,Correlator.step]
    cases waits : w.reconciling[i]? with
    | none =>
      refine iff_of_true ?_ (fun view none_ => by cases none_)
      intro peer before after there found differs
      cases there.symm.trans found
      exact absurd rfl differs
    | some view =>
      have discards : ∀ (row : TrustProjection) (p : PeerPresence) (peer : String),
          p.state ≠ (reconciled (some p) peer row.state (nowMs peer)).state ↔ row.state = .discarded ∧ p.state ≠ .discarded := by
        intro row p peer
        cases trust : row.state <;> simp [reconciled]
      simp only [rows_shown]
      constructor
      · intro stamped view_ same peer row p listed there
        cases same
        have moved := stamped peer p (reconciled (some p) peer row.state (nowMs peer)) there (by simp only [listed,there])
        exact (put_stamped.mp moved).imp_left (discards row p peer).mp
      · intro anew peer before after there found
        cases listed : view.trust[peer]? with
        | none =>
          simp only [listed,there] at found
          cases found
          exact fun differs => absurd rfl differs
        | some row =>
          simp only [listed,there] at found
          cases found
          exact put_stamped.mpr ((anew view rfl peer row before listed there).imp_left (discards row before peer).mpr)

theorem presence_told (config : PresenceCorrelatorConfig) (projection : DomainStateView) (events : List Event) :
    (Guarded Correlator.step UpToDate (.new config projection) events → Throughout Correlator.step Agrees (.new config projection) events) ∧
    (Guarded Correlator.step InOrder (.new config projection) events → Throughout Correlator.step Chained (.new config projection) events) ∧
    (Guarded Correlator.step Stamped (.new config projection) events ↔ Guarded Correlator.step Anew (.new config projection) events) := by
  refine ⟨fun upToDate => ?_,fun inOrder => ?_,?_⟩
  · have held := guarded_keeps step_reconciling (new_reconciling config projection) upToDate
    exact throughout_prefixes.mpr fun k => reconciling_agrees (throughout_prefixes.mp held k)
  · have held := guarded_keeps step_trailing (new_trailing config projection) inOrder
    exact throughout_prefixes.mpr fun k => trailing_chained (throughout_prefixes.mp held k)
  · have same : Stamped = Anew := funext fun w => funext fun event => propext (stamped_anew w event)
    rw [same]

def enters (op : DomainStateOp) : DomainWitness := ⟨⟨"w"⟩,"",0,"a",[],op,""⟩
def admission : DomainWitness := enters (.admitPeer "b" "b" "" [])
def admitted : DomainStateView := applied [admission]
def discarded : DomainStateView := applied [admission,enters (.discardPeer "b" none)]
def readmitted : DomainStateView := applied [admission,enters (.discardPeer "b" none),admission]

-- A peer falls silent and is then discarded.
def departure : List Event :=
  [.announce "b" 1000,.evaluate 4000 4000,.publish 0,.chain discarded,.reconcile,.reconcileLock 0 fun _ => 5000]

theorem departure_told : Throughout Correlator.step Agrees (.new .default admitted) departure ∧
    Throughout Correlator.step Chained (.new .default admitted) departure := by
  have told := presence_told .default admitted departure
  have shown (peer : String) (other : peer ≠ "b") :
      (run Correlator.step (.new .default admitted) (departure.take 5)).shown peer = none := by
    have peers : (run Correlator.step (.new .default admitted) (departure.take 5)).peers =
        (run Correlator.step (.new .default admitted) (departure.take 2)).peers := (publish_rest _ 0).1
    rw [Correlator.shown,peers]
    simp only [departure,List.take_succ_cons,List.take_zero,run_cons,run_nil,Correlator.step,evaluate_peers,
      Correlator.observeAnnounce,setPresence_peers,get_insert,other,if_false]
    rfl
  have emitted (peer : String) : (run Correlator.step (.new .default admitted) (departure.take 5)).unpublished peer = [] := by
    have evaluations : (run Correlator.step (.new .default admitted) (departure.take 5)).evaluations = [⟨[],[]⟩] := by decide
    rw [Correlator.unpublished,evaluations]
    rfl
  refine ⟨told.1 ⟨trivial,trivial,trivial,trivial,trivial,?_,trivial⟩,told.2.1 ⟨?_,trivial,?_,trivial,trivial,?_,trivial⟩⟩
  · rintro view listed peer kept
    have same : view = discarded := (Option.some.inj listed).symm
    have other : peer ≠ "b" := by
      rintro rfl
      exact kept (by decide)
    refine ⟨by rw [same]; exact kept,?_⟩
    intro gone
    cases (shown peer other).symm.trans gone
  · exact fun _ => rfl
  · exact fun _ _ _ _ => rfl
  · exact fun _ _ peer _ _ _ => emitted peer

-- A re-admitted peer stays Discarded; a call that has left its lock is overtaken by an announce; the second
-- announce of a live peer moves the time of its last transition.
theorem presence_untrue :
    (¬ ∀ config projection events,Throughout Correlator.step Agrees (.new config projection) events) ∧
    (¬ ∀ config projection events,Throughout Correlator.step Chained (.new config projection) events) ∧
    ¬ ∀ config projection events,Guarded Correlator.step Stamped (.new config projection) events := by
  refine ⟨fun agrees => ?_,fun chained => ?_,fun stamped => ?_⟩
  · have last := throughout_final (agrees .default admitted [.chain discarded,.reconcile,.reconcileLock 0 fun _ => 5000,
      .chain readmitted,.reconcile,.reconcileLock 0 fun _ => 9000])
    have listed := (last (by decide) (by decide) "b").mp (by decide)
    revert listed
    decide
  · have last := throughout_final (chained .default emptyView
      [.announce "b" 1000,.evaluate 4000 4000,.announce "b" 4001,.publish 0])
    obtain ⟨final,trail⟩ := (last "b").1
    have changes : (run Correlator.step (.new .default emptyView) [.announce "b" 1000,.evaluate 4000 4000,.announce "b" 4001,
      .publish 0]).changes "b" = [("absent","live"),("quiet","live"),("live","quiet")] := by decide
    rw [changes] at trail
    have broken : "quiet" = "live" := trail.2.1
    revert broken
    decide
  · have second := (stamped .default emptyView [.announce "b" 1000,.announce "b" 2000]).2.1
    have moved := second "b" ⟨"b",.live,some 1000,1000⟩ ⟨"b",.live,some 2000,2000⟩ (by decide) (by decide) (by decide)
    exact moved rfl

end EvoCore.Presence
