import EvoCore.Subscriptions

namespace EvoCore.Subscriptions
open Runs HappeningBus
open Coalescer (HappeningEnvelope)

variable {η : Type} {kindStr : η → String} {bus : Bus η} {sub : Subscription η}

def boundaryAfter : List (PersistedHappening η) → Nat → Nat
  | [],last => last
  | row::rest,_ => boundaryAfter rest row.seq

-- The rows that are still to be replayed and the boundary, once they are fixed.
def Subscription.commitment (sub : Subscription η) : Option (List (PersistedHappening η) × Nat) :=
  match sub.phase,sub.since with
  | .replaying rows last,_ => some (rows,boundaryAfter rows last)
  | .live boundary,_ => some ([],boundary)
  | .closed,_ => none
  | _,none => some ([],0)
  | _,some _ => none

theorem commitment_replaying (phase : sub.phase = .replaying rows last) (way : sub.commitment = some (queue,boundary)) :
    queue = rows ∧ boundary = boundaryAfter rows last := by
  simp only [Subscription.commitment,phase,Option.some.injEq,Prod.mk.injEq] at way
  exact ⟨way.1.symm,way.2.symm⟩

theorem commitment_live (phase : sub.phase = .live edge) (way : sub.commitment = some (queue,boundary)) :
    queue = [] ∧ boundary = edge := by
  simp only [Subscription.commitment,phase,Option.some.injEq,Prod.mk.injEq] at way
  exact ⟨way.1.symm,way.2.symm⟩

theorem commitment_ack (before : sub.phase = .subscribed) : sub.ack.commitment = sub.commitment := by
  cases since : sub.since <;> simp [Subscription.commitment,Subscription.ack,before,since]

def Subscription.taken (sub : Subscription η) (envs : List (HappeningEnvelope η)) : List (HappeningEnvelope η) :=
  envs.filter fun env => sub.accepts env.happening

def owed (bus : Bus η) (position boundary : Nat) : List (HappeningEnvelope η) :=
  ((bus.sent.drop position).filter (durable bus.log) ++ bus.left).filter fun env => boundary < env.seq

def rowsFrom (log : List (PersistedHappening η)) (low : Nat) : List (HappeningEnvelope η) :=
  (log.filter fun row => low ≤ row.seq).map (·.envelope)

def Coming (bus : Bus η) (n : Nat) : Prop := bus.nextSeq ≤ n ∨ ∃ row,row ∈ bus.minted ∧ row.seq = n

theorem Coming.unminted {after : Bus η} (next : Coming after n) (waiting : after.minted = []) (counter : after.nextSeq = bus.nextSeq) :
    Coming bus n := by
  rcases next with later | ⟨row,member,_⟩
  · exact .inl (counter ▸ later)
  · simp [waiting] at member

-- The least seq that a subscription is promised.
def Subscription.floor (sub : Subscription η) : Nat := sub.since.getD sub.currentSeq+1

-- What was written and what is on its way make up the log from `low` on.
structure OnTheWay (bus : Bus η) (sub : Subscription η) (low : Nat) (queue : List (PersistedHappening η)) (boundary : Nat) :
    Prop where
  agrees : ∀ n,Coming bus n → (low ≤ n ↔ boundary < n)
  whole : (written sub.frames).filter (durable bus.log) ++ sub.taken (queue.map (·.envelope) ++ owed bus sub.position boundary) =
    sub.taken (rowsFrom bus.log low)

structure Kept (bus : Bus η) (sub : Subscription η) : Prop where
  placed : sub.position ≤ bus.sent.length
  traced : ∀ env,env ∈ written sub.frames → durable bus.log env ∨ env ∈ bus.sent
  silent : sub.phase = .subscribed ∨ sub.phase = .acked → written sub.frames = []
  onTheWay : ∀ queue boundary,sub.commitment = some (queue,boundary) →
    ∃ low,low ≤ sub.floor ∧ OnTheWay bus sub low queue boundary
  part : ∃ low,low ≤ sub.floor ∧ (written sub.frames).filter (durable bus.log) <+: sub.taken (rowsFrom bus.log low)

theorem taken_append : sub.taken (first ++ second) = sub.taken first ++ sub.taken second := List.filter_append ..

theorem OnTheWay.part (way : OnTheWay bus sub low queue boundary) :
    (written sub.frames).filter (durable bus.log) <+: sub.taken (rowsFrom bus.log low) :=
  ⟨_,way.whole⟩

theorem Kept.moved {after : Bus η} (kept : Kept bus sub) (log : after.log = bus.log) (sent : bus.sent <+: after.sent)
    (owing : ∀ boundary,owed after sub.position boundary = owed bus sub.position boundary)
    (coming : ∀ n,Coming after n → Coming bus n) : Kept after sub := by
  refine ⟨?_,?_,kept.silent,?_,?_⟩
  · exact Nat.le_trans kept.placed sent.length_le
  · intro env member
    rw [log]
    exact (kept.traced env member).imp_right fun there => sent.subset there
  · intro queue boundary committed
    obtain ⟨low,under,way⟩ := kept.onTheWay queue boundary committed
    refine ⟨low,under,fun n next => way.agrees n (coming n next),?_⟩
    rw [log,owing]
    exact way.whole
  · rw [log]
    exact kept.part

theorem rowsFrom_append {log rows : List (PersistedHappening η)} : rowsFrom (log ++ rows) low = rowsFrom log low ++ rowsFrom rows low := by
  simp [rowsFrom]

-- The new rows join what is owed: from here on `low` and the boundary ask for the same seqs.
theorem owed_recorded (fresh : Fresh bus) (holds : bus.emitLock = some (.minted rows))
    (agrees : ∀ n,Coming bus n → (low ≤ n ↔ boundary < n)) :
    owed {bus with log := bus.log ++ rows,emitLock := some (.recorded (rows.map (·.envelope)))} position boundary =
      owed bus position boundary ++ rowsFrom rows low := by
  have unread : (bus.sent.drop position).filter (durable (bus.log ++ rows)) = (bus.sent.drop position).filter (durable bus.log) := by
    apply List.filter_congr
    intro env member
    exact durable_recorded fresh holds (.inr (List.mem_of_mem_drop member))
  have added : (rows.map (·.envelope)).filter (fun env => boundary < env.seq) = rowsFrom rows low := by
    rw [List.filter_map,rowsFrom]
    congr 1
    apply List.filter_congr
    intro row member
    have next := agrees row.seq (.inr ⟨row,by simpa [Bus.minted,holds] using member,rfl⟩)
    simp [PersistedHappening.envelope,next]
  simp only [owed,Bus.left,holds,unread,List.filter_append,added,List.append_nil]

theorem Kept.recorded (kept : Kept bus sub) (fresh : Fresh bus) (holds : bus.emitLock = some (.minted rows)) :
    Kept {bus with log := bus.log ++ rows,emitLock := some (.recorded (rows.map (·.envelope)))} sub := by
  have same : (written sub.frames).filter (durable (bus.log ++ rows)) = (written sub.frames).filter (durable bus.log) := by
    apply List.filter_congr
    intro env member
    exact durable_recorded fresh holds (kept.traced env member)
  refine ⟨kept.placed,?_,kept.silent,?_,?_⟩
  · intro env member
    have known := kept.traced env member
    rw [durable_recorded fresh holds known]
    exact known
  · intro queue boundary committed
    obtain ⟨low,under,way⟩ := kept.onTheWay queue boundary committed
    refine ⟨low,under,?_,?_⟩
    · exact fun n next => way.agrees n (next.unminted rfl rfl)
    · simp only [same,owed_recorded fresh holds way.agrees,rowsFrom_append,taken_append,←way.whole,List.append_assoc]
  · obtain ⟨low,under,rest,whole⟩ := kept.part
    refine ⟨low,under,rest ++ sub.taken (rowsFrom rows low),?_⟩
    simp only [same,rowsFrom_append,taken_append,←whole,List.append_assoc]

theorem move_kept (fresh : Fresh bus) (ordered : Ordered bus) (kept : Kept bus sub) (move : Move kindStr bus out after) :
    Kept after sub := by
  cases move with
  | idle => exact kept
  | mint happening =>
    refine kept.moved rfl (List.prefix_refl _) (fun _ => rfl) ?_
    intro n next
    exact next.imp_left fun later => Nat.le_of_succ_le later
  | send position there =>
    rename_i env
    have foreign := ordered.foreign env (List.mem_of_getElem? there)
    refine kept.moved rfl (List.prefix_append ..) ?_ (fun n next => next)
    intro boundary
    simp [owed,Bus.left,List.drop_append_of_le_length kept.placed,foreign]
  | acquire happenings atMs free =>
    refine kept.moved rfl (List.prefix_refl _) ?_ ?_
    · intro boundary
      simp [owed,Bus.left,free]
    · intro n next
      rcases next with later | ⟨row,member,rfl⟩
      · exact .inl (Nat.le_trans (Nat.le_add_right _ _) later)
      · exact .inl (mintedRows_range member).1
  | fail holds =>
    refine kept.moved rfl (List.prefix_refl _) ?_ ?_
    · intro boundary
      simp [owed,Bus.left,holds]
    · exact fun n next => next.unminted rfl rfl
  | record holds => exact kept.recorded fresh holds
  | broadcast holds =>
    rename_i env rest
    have listed : env ∈ bus.log.map (·.envelope) := ordered.owing env (by simp [Bus.left,holds])
    obtain ⟨row,member,rfl⟩ := List.mem_map.mp listed
    have logged : durable bus.log row.envelope := durable_iff.mpr ⟨row,member,rfl⟩
    refine kept.moved rfl (List.prefix_append ..) ?_ ?_
    · intro boundary
      simp [owed,Bus.left,holds,List.drop_append_of_le_length kept.placed,logged]
    · exact fun n next => next.unminted rfl rfl
  | release holds =>
    refine kept.moved rfl (List.prefix_refl _) ?_ ?_
    · intro boundary
      simp [owed,Bus.left,holds]
    · exact fun n next => next.unminted rfl rfl

theorem bmod_le_self {n m : Nat} : Int.bmod n m ≤ n := by
  have low : ((n % m : Nat) : Int) ≤ n := Int.ofNat_le.mpr (Nat.mod_le n m)
  rw [Int.bmod_def]
  split <;> omega

theorem asI64_le : asI64 n ≤ n := bmod_le_self

-- The rows of the log stand in the order of their seqs, so the query sorts nothing.
theorem loadHappeningsSince_take {log : List (PersistedHappening η)} (ascending : log.Pairwise fun a b => a.seq < b.seq) :
    loadHappeningsSince log cursor limit = (log.filter fun row => asI64 cursor < row.seq).take limit := by
  have sorted : (log.filter fun row => asI64 cursor < row.seq).Pairwise fun a b => a.seq ≤ b.seq :=
    (ascending.filter _).imp Nat.le_of_lt
  rw [loadHappeningsSince,sorted.insertionSort_eq]

theorem loadHappeningsSince_whole {log : List (PersistedHappening η)} (ascending : log.Pairwise fun a b => a.seq < b.seq)
    (fits : (log.filter fun row => asI64 cursor < row.seq).length ≤ limit) :
    loadHappeningsSince log cursor limit = log.filter fun row => asI64 cursor < row.seq := by
  rw [loadHappeningsSince_take ascending,List.take_of_length_le fits]

theorem boundaryAfter_top (last : Nat) (ascending : (row::rest).Pairwise fun (a b : PersistedHappening η) => a.seq < b.seq) :
    ∃ top,top ∈ row::rest ∧ boundaryAfter (row::rest) last = top.seq ∧ ∀ other,other ∈ row::rest → other.seq ≤ top.seq := by
  induction rest generalizing row last with
  | nil => exact ⟨row,by simp,rfl,by simp⟩
  | cons next rest ih =>
    obtain ⟨first,later⟩ := List.pairwise_cons.mp ascending
    obtain ⟨top,member,same,above⟩ := ih row.seq later
    refine ⟨top,List.mem_cons_of_mem _ member,same,?_⟩
    intro other among
    rcases List.mem_cons.mp among with rfl | tail
    · exact Nat.le_of_lt (first top member)
    · exact above other tail

theorem boundaryAfter_replay {log : List (PersistedHappening η)} (cursor : Nat) (ascending : log.Pairwise fun a b => a.seq < b.seq)
    (member : row ∈ log) : row.seq ≤ boundaryAfter (log.filter fun row => asI64 cursor < row.seq) cursor := by
  by_cases asked : asI64 cursor < row.seq
  · have among : row ∈ log.filter fun row => asI64 cursor < row.seq := by simp [member,asked]
    cases rows : log.filter fun row => asI64 cursor < row.seq with
    | nil => simp [rows] at among
    | cons first rest =>
      obtain ⟨top,-,same,above⟩ := boundaryAfter_top cursor (rows ▸ ascending.filter _)
      rw [same]
      exact above row (rows ▸ among)
  · cases rows : log.filter fun row => asI64 cursor < row.seq with
    | nil =>
      have low := asI64_le (n := cursor)
      simp only [boundaryAfter]
      omega
    | cons first rest =>
      obtain ⟨top,there,same,-⟩ := boundaryAfter_top cursor (rows ▸ ascending.filter _)
      rw [←rows,List.mem_filter,decide_eq_true_eq] at there
      rw [same]
      omega

-- The seqs from which the query takes the log. Past 2^63 the cursor turns negative and takes it all.
def lowest (cursor : Nat) (rows : List (PersistedHappening η)) : Nat :=
  if rows.isEmpty then cursor+1 else (asI64 cursor+1).toNat

theorem query_agrees {log : List (PersistedHappening η)} (ascending : log.Pairwise fun a b => a.seq < b.seq)
    (rows : replay = log.filter fun row => asI64 cursor < row.seq) (above : ∀ row,row ∈ log → row.seq < n) :
    lowest cursor replay ≤ n ↔ boundaryAfter replay cursor < n := by
  cases replay with
  | nil => simp [lowest,boundaryAfter]
  | cons first rest =>
    obtain ⟨top,there,same,-⟩ := boundaryAfter_top cursor (rows ▸ ascending.filter _)
    rw [rows,List.mem_filter,decide_eq_true_eq] at there
    have high := above top there.1
    simp only [lowest,List.isEmpty_cons,Bool.false_eq_true,↓reduceIte,same,high,iff_true]
    omega

theorem query_rows {log : List (PersistedHappening η)} (rows : replay = log.filter fun row => asI64 cursor < row.seq) :
    replay.map (·.envelope) = rowsFrom log (lowest cursor replay) := by
  cases replay with
  | nil =>
    have none : log.filter (fun row => cursor+1 ≤ row.seq) = [] := by
      apply List.filter_eq_nil_iff.mpr
      intro row member later
      have unasked := List.filter_eq_nil_iff.mp rows.symm row member
      have low := asI64_le (n := cursor)
      simp only [decide_eq_true_eq] at later unasked
      omega
    simp only [rowsFrom,lowest,List.isEmpty_nil,↓reduceIte,none,List.map_nil]
  | cons first rest =>
    have low : lowest cursor (first::rest) = (asI64 cursor+1).toNat := by simp [lowest]
    have same : (log.filter fun row => (asI64 cursor+1).toNat ≤ row.seq) = first::rest := by
      rw [rows]
      apply List.filter_congr
      intro row member
      simp only [decide_eq_decide]
      omega
    rw [rowsFrom,low,same]

theorem coming_above (fresh : Fresh bus) (ordered : Ordered bus) (next : Coming bus n) (member : row ∈ bus.log) : row.seq < n := by
  rcases next with later | ⟨minted,waiting,rfl⟩
  · exact Nat.lt_of_lt_of_le (fresh.logged row member) later
  · exact (List.pairwise_append.mp ordered.ascending).2.2 row member minted waiting

theorem owed_durable (ordered : Ordered bus) (member : env ∈ owed bus position boundary) : durable bus.log env := by
  have among := List.mem_of_mem_filter member
  rcases List.mem_append.mp among with unread | left
  · exact (List.mem_filter.mp unread).2
  · obtain ⟨row,logged,rfl⟩ := List.mem_map.mp (ordered.owing env left)
    exact durable_iff.mpr ⟨row,logged,rfl⟩

theorem owed_replayed (ordered : Ordered bus) :
    owed bus position (boundaryAfter (bus.log.filter fun row => asI64 cursor < row.seq) cursor) = [] := by
  have ascending := ordered.log_ascending
  apply List.eq_nil_iff_forall_not_mem.mpr
  intro env member
  obtain ⟨row,logged,same⟩ := durable_iff.mp (owed_durable ordered member)
  have under := boundaryAfter_replay cursor ascending logged
  have above := (List.mem_filter.mp member).2
  simp only [decide_eq_true_eq] at above
  omega

theorem Kept.queried (kept : Kept bus sub) (fresh : Fresh bus) (ordered : Ordered bus) (before : sub.phase = .acked)
    (since : sub.since = some cursor) (fits : (bus.log.filter fun row => asI64 cursor < row.seq).length ≤ u32Max) :
    Kept bus {sub with phase := .replaying (loadHappeningsSince bus.log cursor u32Max) cursor} := by
  have ascending := ordered.log_ascending
  rw [loadHappeningsSince_whole ascending fits]
  refine ⟨kept.placed,kept.traced,by simp,?_,kept.part⟩
  intro queue boundary committed
  obtain ⟨rfl,rfl⟩ := commitment_replaying rfl committed
  refine ⟨lowest cursor (bus.log.filter fun row => asI64 cursor < row.seq),?_,?_,?_⟩
  · have low := asI64_le (n := cursor)
    simp only [Subscription.floor,since,Option.getD_some,lowest]
    split <;> omega
  · intro n next
    exact query_agrees ascending rfl fun row member => coming_above fresh ordered next member
  · simp only [kept.silent (.inr before),owed_replayed ordered,query_rows rfl,List.filter_nil,List.nil_append,List.append_nil]

theorem rowsFrom_durable {log : List (PersistedHappening η)} (member : env ∈ rowsFrom log low) : durable log env := by
  obtain ⟨row,among,rfl⟩ := List.mem_map.mp member
  exact durable_iff.mpr ⟨row,List.mem_of_mem_filter among,rfl⟩

theorem OnTheWay.queued (way : OnTheWay bus sub low (row::rest) boundary) (accepted : sub.accepts row.payload) :
    durable bus.log row.envelope := by
  have among : row.envelope ∈ sub.taken (rowsFrom bus.log low) := by
    rw [←way.whole]
    apply List.mem_append_right
    simp [Subscription.taken,PersistedHappening.envelope,accepted]
  exact rowsFrom_durable (List.mem_of_mem_filter among)

theorem OnTheWay.rowReplayed {row : PersistedHappening η} (way : OnTheWay bus sub low (row::rest) boundary) : OnTheWay bus {sub with
    phase := phase
    frames := sub.frames ++ if sub.accepts row.payload then [.happening row.seq row.payload] else []} low rest boundary := by
  refine ⟨way.agrees,?_⟩
  have whole := way.whole
  by_cases accepted : sub.accepts row.payload
  · have logged := way.queued accepted
    simp only [PersistedHappening.envelope] at logged
    simpa [Subscription.taken,PersistedHappening.envelope,accepted,logged] using whole
  · simpa [Subscription.taken,PersistedHappening.envelope,accepted] using whole

theorem drop_next {sent : List (HappeningEnvelope η)} (there : sent[position]? = some env) :
    sent.drop position = [env] ++ sent.drop (position+1) := by
  obtain ⟨bound,rfl⟩ := List.getElem?_eq_some_iff.mp there
  exact List.drop_eq_getElem_cons bound

theorem owed_next (there : bus.sent[position]? = some env) : owed bus position boundary =
    ([env].filter fun env => boundary < env.seq && durable bus.log env) ++ owed bus (position+1) boundary := by
  simp only [owed,drop_next there,List.filter_append,List.append_assoc,List.filter_filter]

theorem OnTheWay.recv (way : OnTheWay bus sub low [] boundary) (there : bus.sent[sub.position]? = some env) :
    OnTheWay bus {sub with
      position := sub.position+1
      frames := sub.frames ++
        if env.seq ≤ boundary then []
        else if sub.accepts env.happening then [.happening env.seq env.happening] else []} low [] boundary := by
  refine ⟨way.agrees,?_⟩
  have whole := way.whole
  rw [owed_next there] at whole
  by_cases old : env.seq ≤ boundary
  · simpa [Subscription.taken,old,Nat.not_lt_of_le] using whole
  · have new : boundary < env.seq := by omega
    by_cases logged : durable bus.log env
    · by_cases accepted : sub.accepts env.happening
      · simpa [Subscription.taken,old,new,logged,accepted] using whole
      · simpa [Subscription.taken,old,new,logged,accepted] using whole
    · by_cases accepted : sub.accepts env.happening
      · simpa [Subscription.taken,old,new,logged,accepted] using whole
      · simpa [Subscription.taken,old,new,logged,accepted] using whole

theorem Kept.relabel (kept : Kept bus sub) (same : written frames = written sub.frames)
    (silent : phase = .subscribed ∨ phase = .acked → written sub.frames = [])
    (committed : ∀ way,{sub with phase := phase,frames := frames}.commitment = some way → sub.commitment = some way) :
    Kept bus {sub with phase := phase,frames := frames} := by
  refine ⟨kept.placed,?_,?_,?_,?_⟩
  · simpa only [same] using kept.traced
  · simpa only [same] using silent
  · intro queue boundary there
    obtain ⟨low,under,way⟩ := kept.onTheWay queue boundary (committed _ there)
    refine ⟨low,under,way.agrees,?_⟩
    rw [same]
    exact way.whole
  · rw [same]
    exact kept.part

theorem Kept.rowReplayed {row : PersistedHappening η} (kept : Kept bus sub) (before : sub.phase = .replaying (row::rest) last) : Kept bus {sub with
    phase := .replaying rest row.seq
    frames := sub.frames ++ if sub.accepts row.payload then [.happening row.seq row.payload] else []} := by
  obtain ⟨low,under,way⟩ := kept.onTheWay (row::rest) (boundaryAfter (row::rest) last) (by simp [Subscription.commitment,before])
  have replayed : OnTheWay bus {sub with phase := .replaying rest row.seq,frames := _} low rest _ := way.rowReplayed
  refine ⟨kept.placed,?_,by simp,?_,⟨low,under,replayed.part⟩⟩
  · intro env member
    simp only [written_append,List.mem_append] at member
    rcases member with old | new
    · exact kept.traced env old
    · split at new
      · rename_i accepted
        cases List.mem_singleton.mp new
        exact .inl (way.queued accepted)
      · cases new
  · intro queue boundary committed
    obtain ⟨rfl,rfl⟩ := commitment_replaying rfl committed
    exact ⟨low,under,replayed⟩

theorem Kept.recv (kept : Kept bus sub) (before : sub.phase = .live boundary) (there : bus.sent[sub.position]? = some env) :
    Kept bus {sub with
      position := sub.position+1
      frames := sub.frames ++
        if env.seq ≤ boundary then []
        else if sub.accepts env.happening then [.happening env.seq env.happening] else []} := by
  obtain ⟨low,under,way⟩ := kept.onTheWay [] boundary (by simp [Subscription.commitment,before])
  have received := way.recv there
  refine ⟨?_,?_,by simp [before],?_,⟨low,under,received.part⟩⟩
  · obtain ⟨bound,-⟩ := List.getElem?_eq_some_iff.mp there
    exact bound
  · intro other member
    simp only [written_append,List.mem_append] at member
    rcases member with old | new
    · exact kept.traced other old
    · split at new
      · cases new
      · split at new
        · cases List.mem_singleton.mp new
          exact .inr (List.mem_of_getElem? there)
        · cases new
  · intro queue edge committed
    obtain ⟨rfl,rfl⟩ := commitment_live before committed
    exact ⟨low,under,received⟩

theorem turn_kept (fresh : Fresh bus) (ordered : Ordered bus) (kept : Kept bus sub) (turn : Turn bus sub asked after)
    (fits : ∀ cursor,asked = some cursor → (bus.log.filter fun row => asI64 cursor < row.seq).length ≤ u32Max) :
    Kept bus after := by
  cases turn with
  | idle => exact kept
  | close error before => exact kept.relabel (by simp) (by simp) (by simp [Subscription.commitment])
  | ack before =>
    refine kept.relabel (by simp) (fun _ => kept.silent (.inl before)) ?_
    exact fun way committed => (commitment_ack before).symm.trans committed
  | unreplayed before live => exact kept.relabel rfl (by simp) (by simp [Subscription.commitment,before,live])
  | query before since => exact kept.queried fresh ordered before since (fits _ rfl)
  | row before => exact kept.rowReplayed before
  | replayed before => exact kept.relabel rfl (by simp) (by simp [Subscription.commitment,before,boundaryAfter])
  | recv before there => exact kept.recv before there

theorem subscribe_kept (fresh : Fresh bus) (free : bus.emitLock = none) : Kept bus (subscribeWithCurrentSeq bus since accepts) := by
  have none : rowsFrom bus.log (bus.nextSeq-1+1) = [] := by
    simp only [rowsFrom,List.map_eq_nil_iff,List.filter_eq_nil_iff,decide_eq_true_eq]
    intro row member
    have below := fresh.logged row member
    omega
  refine ⟨Nat.le_refl _,by simp [subscribeWithCurrentSeq],fun _ => rfl,?_,⟨_,Nat.le_refl _,List.nil_prefix⟩⟩
  intro queue boundary committed
  cases since with
  | some cursor => simp [subscribeWithCurrentSeq,Subscription.commitment] at committed
  | none =>
    simp only [subscribeWithCurrentSeq,Subscription.commitment,Option.some.injEq,Prod.mk.injEq] at committed
    obtain ⟨rfl,rfl⟩ := committed
    refine ⟨_,Nat.le_refl _,?_,?_⟩
    · intro n next
      rcases next with later | ⟨row,member,_⟩
      · simp only [Subscription.floor,subscribeWithCurrentSeq,Option.getD_none]
        omega
      · simp [Bus.minted,free] at member
    · simp [Subscription.floor,subscribeWithCurrentSeq,none,owed,Bus.left,free,Subscription.taken]

structure Sound (s : System η) : Prop where
  fresh : Fresh s.bus
  ordered : Ordered s.bus
  kept : ∀ sub,sub ∈ s.subscriptions → Kept s.bus sub

-- The replay query asks for at most u32::MAX rows.
def ReplayFits (s : System η) : Event η → Prop
  | .call subscriber call => ∀ sub cursor,s.subscriptions[subscriber]? = some sub → sub.asks call = some cursor →
      (s.bus.log.filter fun row => asI64 cursor < row.seq).length ≤ u32Max
  | _ => True

theorem step_sound (sound : Sound s) (fits : ReplayFits s event) : Sound (s.step kindStr event) := by
  cases event with
  | emits event =>
    have move : Move kindStr s.bus _ (s.bus.step kindStr event) := step_move
    refine ⟨move_fresh sound.fresh move,move_ordered sound.fresh sound.ordered move,?_⟩
    intro sub member
    exact move_kept sound.fresh sound.ordered (sound.kept sub member) move
  | subscribe since accepts =>
    simp only [System.step]
    cases free : s.bus.emitLock with
    | some emission => exact sound
    | none =>
      refine ⟨sound.fresh,sound.ordered,?_⟩
      intro sub member
      rcases List.mem_append.mp member with old | new
      · exact sound.kept sub old
      · cases List.mem_singleton.mp new
        exact subscribe_kept sound.fresh free
  | call subscriber call =>
    simp only [System.step]
    cases there : s.subscriptions[subscriber]? with
    | none => exact sound
    | some sub =>
      refine ⟨sound.fresh,sound.ordered,?_⟩
      intro other member
      rcases List.mem_or_eq_of_mem_set member with old | rfl
      · exact sound.kept other old
      · exact turn_kept sound.fresh sound.ordered (sound.kept sub (List.mem_of_getElem? there)) advance_turn
          fun cursor asked => fits sub cursor there asked

theorem booted_sound {log : List (PersistedHappening η)} (ascending : log.Pairwise fun a b => a.seq < b.seq) :
    Sound (System.booted log) := by
  refine ⟨withPersistence_fresh .nil (by simp),⟨?_,?_,?_,?_⟩,?_⟩
  · simpa [System.booted,Bus.withPersistence,Bus.minted] using ascending
  · simp [System.booted,Bus.withPersistence]
  · simp [System.booted,Bus.withPersistence,Bus.left]
  · simp [System.booted,Bus.withPersistence]
  · simp [System.booted]

-- Live, with nothing unread and no durable emission under way.
def CaughtUp (bus : Bus η) (sub : Subscription η) : Prop :=
  (∃ boundary,sub.phase = .live boundary) ∧ sub.position = bus.sent.length ∧ bus.emitLock = none

theorem rowsFrom_ascending {log : List (PersistedHappening η)} (sub : Subscription η) (low : Nat) (ascending : log.Pairwise fun a b => a.seq < b.seq) :
    (sub.taken (rowsFrom log low)).Pairwise fun a b => a.seq < b.seq := by
  apply List.Pairwise.filter
  exact List.pairwise_map.mpr (ascending.filter _)

theorem taken_rowsFrom {log : List (PersistedHappening η)} (sub : Subscription η) (member : row ∈ log) (high : low ≤ row.seq)
    (accepted : sub.accepts row.payload) : row.envelope ∈ sub.taken (rowsFrom log low) := by
  refine List.mem_filter.mpr ⟨List.mem_map_of_mem ?_,accepted⟩
  exact List.mem_filter.mpr ⟨member,by simpa using high⟩

theorem Kept.unbroken (kept : Kept bus sub) (ordered : Ordered bus) (member : row ∈ bus.log) (high : sub.floor ≤ row.seq)
    (accepted : sub.accepts row.payload) (frame : env ∈ written sub.frames) (logged : durable bus.log env)
    (reached : row.seq ≤ env.seq) : row.envelope ∈ written sub.frames := by
  obtain ⟨low,under,rest,whole⟩ := kept.part
  have ascending := rowsFrom_ascending sub low ordered.log_ascending
  have among := taken_rowsFrom sub member (Nat.le_trans under high) accepted
  rw [←whole] at ascending among
  rcases List.mem_append.mp among with out | later
  · exact List.mem_of_mem_filter out
  · have above := (List.pairwise_append.mp ascending).2.2 env (List.mem_filter.mpr ⟨frame,logged⟩) row.envelope later
    simp only [PersistedHappening.envelope] at above
    omega

theorem Kept.caughtUp (kept : Kept bus sub) (done : CaughtUp bus sub) :
    ∃ low,low ≤ sub.floor ∧ (written sub.frames).filter (durable bus.log) = sub.taken (rowsFrom bus.log low) := by
  obtain ⟨⟨boundary,live⟩,read,free⟩ := done
  obtain ⟨low,under,way⟩ := kept.onTheWay [] boundary (by simp [Subscription.commitment,live])
  refine ⟨low,under,?_⟩
  have whole := way.whole
  simpa [owed,read,Bus.left,free,Subscription.taken] using whole

theorem filter_seq {envs : List (HappeningEnvelope η)} (ascending : envs.Pairwise fun a b => a.seq < b.seq) (member : env ∈ envs) :
    envs.filter (fun other => other.seq = env.seq) = [env] := by
  induction envs with
  | nil => cases member
  | cons first rest ih =>
    obtain ⟨above,later⟩ := List.pairwise_cons.mp ascending
    rcases List.mem_cons.mp member with rfl | tail
    · have none : rest.filter (fun other => other.seq = env.seq) = [] := by
        simp only [List.filter_eq_nil_iff,decide_eq_true_eq]
        intro other among same
        exact Nat.ne_of_gt (above other among) same
      simp [none]
    · have apart : first.seq ≠ env.seq := Nat.ne_of_lt (above env tail)
      simp [apart,ih later tail]

theorem Kept.once (kept : Kept bus sub) (ordered : Ordered bus) (done : CaughtUp bus sub) (member : row ∈ bus.log)
    (high : sub.floor ≤ row.seq) (accepted : sub.accepts row.payload) :
    (written sub.frames).filter (fun env => env.seq = row.seq) = [row.envelope] := by
  obtain ⟨low,under,whole⟩ := kept.caughtUp done
  have ascending := rowsFrom_ascending sub low ordered.log_ascending
  have single := filter_seq ascending (taken_rowsFrom sub member (Nat.le_trans under high) accepted)
  rw [←whole,List.filter_filter] at single
  rw [←single]
  apply List.filter_congr
  intro env _
  by_cases same : env.seq = row.seq
  · have logged : durable bus.log env := durable_iff.mpr ⟨row,member,same.symm⟩
    simp [PersistedHappening.envelope,same,logged]
  · simp [PersistedHappening.envelope,same]

-- Its own calls bring a subscription that the window gate lets through to the end of what was sent.
def Reaches (bus : Bus η) (sub : Subscription η) : Prop := ∃ calls : List Call,CaughtUp bus (calls.foldl (advance bus) sub)

def refused (bus : Bus η) (cursor : Nat) : Bool :=
  0 < loadOldestHappeningSeq bus.log && cursor < loadOldestHappeningSeq bus.log

theorem Reaches.after (call : Call) (reaches : Reaches bus (advance bus sub call)) : Reaches bus sub := by
  obtain ⟨calls,done⟩ := reaches
  exact ⟨call::calls,done⟩

theorem live_reaches (live : sub.phase = .live boundary) (placed : sub.position+n = bus.sent.length) (free : bus.emitLock = none) :
    Reaches bus sub := by
  induction n generalizing sub with
  | zero => exact ⟨[],⟨boundary,live⟩,placed,free⟩
  | succ n ih =>
    have bound : sub.position < bus.sent.length := by omega
    have there : bus.sent[sub.position]? = some bus.sent[sub.position] := List.getElem?_eq_getElem bound
    apply Reaches.after .recv
    apply ih
    · simp [advance,live,recv,there]
    · simp only [advance,live,recv,there]
      omega

theorem replaying_reaches (replaying : sub.phase = .replaying rows last) (placed : sub.position+n = bus.sent.length)
    (free : bus.emitLock = none) : Reaches bus sub := by
  induction rows generalizing sub last with
  | nil =>
    apply Reaches.after (.replayRow none)
    simp only [advance,replaying,replayRow]
    exact live_reaches rfl placed free
  | cons row rows ih =>
    apply Reaches.after (.replayRow none)
    simp only [advance,replaying,replayRow]
    exact ih rfl placed

theorem acked_reaches (acked : sub.phase = .acked) (since : sub.since = some cursor) (placed : sub.position+n = bus.sent.length)
    (free : bus.emitLock = none) : Reaches bus sub := by
  apply Reaches.after (.loadSince none)
  simp only [advance,acked,replayQuery,since]
  exact replaying_reaches rfl placed free

theorem gate_passes (subscribed : sub.phase = .subscribed) (since : sub.since = some cursor) (allowed : refused bus cursor = false) :
    advance bus sub (.loadOldest none) = sub.ack := by
  simp only [refused,Bool.and_eq_false_iff,decide_eq_false_iff_not] at allowed
  simp only [advance,subscribed,checkWindow,since]
  rw [if_neg]
  rintro ⟨old,below⟩
  exact allowed.elim (fun none => none old) fun inside => inside below

theorem subscribed_reaches (subscribed : sub.phase = .subscribed) (since : sub.since = some cursor)
    (allowed : refused bus cursor = false) (placed : sub.position+n = bus.sent.length) (free : bus.emitLock = none) :
    Reaches bus sub := by
  apply Reaches.after (.loadOldest none)
  rw [gate_passes subscribed since allowed]
  exact acked_reaches rfl since placed free

theorem Kept.reaches (kept : Kept bus sub) (since : sub.since = some cursor) (running : sub.phase ≠ .closed)
    (allowed : sub.phase = .subscribed → refused bus cursor = false) (free : bus.emitLock = none) : Reaches bus sub := by
  obtain ⟨n,rest⟩ := Nat.exists_eq_add_of_le kept.placed
  cases phase : sub.phase with
  | subscribed => exact subscribed_reaches phase since (allowed phase) rest.symm free
  | acked => exact acked_reaches phase since rest.symm free
  | replaying rows last => exact replaying_reaches phase rest.symm free
  | live boundary => exact live_reaches phase rest.symm free
  | closed => exact absurd phase running

-- The durable frames of a subscription from a cursor: in order, with no row left out below the last of
-- them, each row once when it has caught up, and it can catch up unless it ended with an error.
structure DeliveredOnce (bus : Bus η) (sub : Subscription η) (cursor : Nat) : Prop where
  ordered : ((written sub.frames).filter (durable bus.log)).Pairwise fun a b => a.seq < b.seq
  unbroken : ∀ row env,row ∈ bus.log → cursor < row.seq → sub.accepts row.payload → env ∈ written sub.frames →
    durable bus.log env → row.seq ≤ env.seq → row.envelope ∈ written sub.frames
  once : CaughtUp bus sub → ∀ row,row ∈ bus.log → cursor < row.seq → sub.accepts row.payload →
    (written sub.frames).filter (fun env => env.seq = row.seq) = [row.envelope]
  reaches : sub.phase ≠ .closed → (sub.phase = .subscribed → refused bus cursor = false) → bus.emitLock = none → Reaches bus sub

theorem Kept.deliveredOnce (kept : Kept bus sub) (ordered : Ordered bus) (since : sub.since = some cursor) :
    DeliveredOnce bus sub cursor := by
  have floor : sub.floor = cursor+1 := by simp [Subscription.floor,since]
  refine ⟨?_,?_,?_,?_⟩
  · obtain ⟨low,-,part⟩ := kept.part
    exact (rowsFrom_ascending sub low ordered.log_ascending).sublist part.sublist
  · intro row env member high accepted frame logged reached
    exact kept.unbroken ordered member (floor ▸ high) accepted frame logged reached
  · intro done row member high accepted
    exact kept.once ordered done member (floor ▸ high) accepted
  · exact fun running allowed free => kept.reaches since running allowed free

theorem durable_happenings_delivered_once (log : List (PersistedHappening η)) (ascending : log.Pairwise fun a b => a.seq < b.seq)
    (events : List (Event η)) (fits : Guarded (System.step kindStr) ReplayFits (.booted log) events) :
    Throughout (System.step kindStr)
      (fun s => ∀ sub cursor,sub ∈ s.subscriptions → sub.since = some cursor → DeliveredOnce s.bus sub cursor)
      (.booted log) events := by
  have sound : Throughout (System.step kindStr) Sound (.booted log) events :=
    guarded_keeps (fun s event held met => step_sound held met) (booted_sound ascending) fits
  apply throughout_prefixes.mpr
  intro k sub cursor member since
  have held := throughout_prefixes.mp sound k
  exact (held.kept sub member).deliveredOnce held.ordered since

theorem replayFits_short (short : s.bus.log.length ≤ u32Max) : ReplayFits (η := η) s event := by
  cases event with
  | call subscriber call =>
    intro sub cursor _ _
    exact Nat.le_trans (List.length_filter_le ..) short
  | _ => trivial

-- Row 3 is recorded between the subscribe and the replay query, and its envelope is the duplicate.
def overlapping : List (Event String) :=
  [.subscribe (some 1) (fun _ => true),.call 0 (.loadOldest none),.emits (.emitDurable "subject_merged" 30),
    .emits (.record true),.call 0 (.loadSince none),.emits .broadcast,.emits .broadcast,.call 0 (.replayRow none),
    .call 0 (.replayRow none),.call 0 (.replayRow none),.call 0 .recv]

theorem overlapping_replay_delivered_once :
    (run (System.step id) (.booted [⟨1,"custody_taken","custody_taken",10⟩,⟨2,"subject_split","subject_split",20⟩])
      overlapping).subscriptions.map (fun sub => written sub.frames) = [[⟨2,"subject_split"⟩,⟨3,"subject_merged"⟩]] ∧
    Throughout (System.step id)
      (fun s => ∀ sub cursor,sub ∈ s.subscriptions → sub.since = some cursor → DeliveredOnce s.bus sub cursor)
      (.booted [⟨1,"custody_taken","custody_taken",10⟩,⟨2,"subject_split","subject_split",20⟩]) overlapping := by
  refine ⟨by decide,durable_happenings_delivered_once _ (by decide) _ ?_⟩
  apply guarded_positions.mpr
  intro k event there
  obtain ⟨bound,-⟩ := List.getElem?_eq_some_iff.mp there
  apply replayFits_short
  have short : ∀ k,k < overlapping.length → (run (System.step id)
      (.booted [⟨1,"custody_taken","custody_taken",10⟩,⟨2,"subject_split","subject_split",20⟩]) (overlapping.take k)).bus.log.length ≤ u32Max := by
    decide
  exact short k bound

structure Missed (bus : Bus η) (sub : Subscription η) (n : Nat) : Prop where
  unwritten : ∀ env,env ∈ written sub.frames → env.seq ≠ n
  read : bus.sent.length ≤ sub.position
  asked : sub.phase ≠ .subscribed ∧ sub.phase ≠ .acked
  unqueued : ∀ rows last,sub.phase = .replaying rows last → ∀ row,row ∈ rows → row.seq ≠ n

theorem turn_missed (missed : Missed bus sub n) (turn : Turn bus sub asked after) : Missed bus after n := by
  cases turn with
  | idle => exact missed
  | close error before =>
    exact ⟨by simpa [Subscription.close] using missed.unwritten,missed.read,by simp [Subscription.close],by simp [Subscription.close]⟩
  | ack before => exact absurd before missed.asked.1
  | unreplayed before live => exact absurd before missed.asked.2
  | query before since => exact absurd before missed.asked.2
  | row before =>
    rename_i row rest last
    have others := missed.unqueued (row::rest) last before
    refine ⟨?_,missed.read,by simp,?_⟩
    · intro env member
      simp only [written_append,List.mem_append] at member
      rcases member with old | new
      · exact missed.unwritten env old
      · split at new
        · cases List.mem_singleton.mp new
          exact others row (by simp)
        · cases new
    · intro rows next phase other member
      cases phase
      exact others other (List.mem_cons_of_mem _ member)
  | replayed before => exact ⟨missed.unwritten,missed.read,by simp,by simp⟩
  | recv before there =>
    obtain ⟨bound,-⟩ := List.getElem?_eq_some_iff.mp there
    exact absurd missed.read (by omega)

theorem calls_missed (calls : List Call) (missed : Missed bus sub n) : Missed bus (calls.foldl (advance bus) sub) n := by
  induction calls generalizing sub with
  | nil => exact missed
  | cons call rest ih => exact ih (turn_missed missed advance_turn)

theorem step_alone : System.step kindStr ⟨bus,[sub]⟩ (.call 0 call) = ⟨bus,[advance bus sub call]⟩ := rfl

theorem replay_misses (log : List (PersistedHappening η)) (cursor : Nat) (accepts : η → Bool)
    (allowed : refused (.withPersistence log []) cursor = false)
    (behind : ∀ row,row ∈ loadHappeningsSince log cursor u32Max → row.seq ≠ n) :
    ∃ sub,(run (System.step kindStr) (.booted log)
        [.subscribe (some cursor) accepts,.call 0 (.loadOldest none),.call 0 (.loadSince none)]).subscriptions = [sub] ∧
      ∀ (calls : List Call) env,env ∈ written (calls.foldl (advance (.withPersistence log [])) sub).frames → env.seq ≠ n := by
  have opened : System.step kindStr (.booted log) (.subscribe (some cursor) accepts) =
      ⟨.withPersistence log [],[subscribeWithCurrentSeq (.withPersistence log []) (some cursor) accepts]⟩ := rfl
  refine ⟨{(subscribeWithCurrentSeq (.withPersistence log []) (some cursor) accepts).ack with
    phase := .replaying (loadHappeningsSince log cursor u32Max) cursor},?_,?_⟩
  · rw [run_cons,opened,run_cons,step_alone,gate_passes rfl rfl allowed,run_cons,step_alone]
    rfl
  · intro calls env member
    refine (calls_missed calls ⟨?_,?_,?_,?_⟩).unwritten env member
    · simp [subscribeWithCurrentSeq,Subscription.ack]
    · exact Nat.le_refl _
    · simp
    · intro rows last phase row among
      cases phase
      exact behind row among

def seededLog (m : Nat) : List (PersistedHappening String) :=
  (List.range m).map fun n => ⟨n+1,"custody_taken","custody_taken",0⟩

theorem seededLog_succ : seededLog (m+1) = seededLog m ++ [⟨m+1,"custody_taken","custody_taken",0⟩] := by
  simp [seededLog,List.range_succ]

theorem seededLog_ascending : (seededLog m).Pairwise fun a b => a.seq < b.seq := by
  apply List.pairwise_map.mpr
  exact List.pairwise_lt_range.imp fun less => Nat.succ_lt_succ less

theorem seededLog_filter : ((seededLog (m+1)).filter fun row => asI64 1 < row.seq).length = m := by
  have one : asI64 1 = 1 := by decide
  induction m with
  | zero => simp [seededLog,one]
  | succ m ih =>
    rw [seededLog_succ,List.filter_append,List.length_append,ih]
    simp [one]

theorem seededLog_below (member : row ∈ seededLog m) : row.seq ≤ m := by
  obtain ⟨n,among,rfl⟩ := List.mem_map.mp member
  exact List.mem_range.mp among

-- One row more than the limit after the cursor, and the last one is cut off.
theorem replay_limited (member : row ∈ loadHappeningsSince (seededLog (m+2)) 1 m) : row.seq ≠ m+2 := by
  rw [loadHappeningsSince_take seededLog_ascending,seededLog_succ,List.filter_append,
    List.take_append_of_le_length (Nat.le_of_eq seededLog_filter.symm)] at member
  have below := seededLog_below (List.mem_of_mem_filter (List.mem_of_mem_take member))
  omega

theorem seededLog_allowed : refused (.withPersistence (seededLog (m+1)) []) 1 = false := by
  have first : 1 ∈ (seededLog (m+1)).map (·.seq) := by simp [seededLog]
  have oldest : loadOldestHappeningSeq (seededLog (m+1)) ≤ 1 := by
    unfold loadOldestHappeningSeq
    cases low : ((seededLog (m+1)).map (·.seq)).min? with
    | none => exact Nat.zero_le _
    | some least => exact (List.min?_eq_some_iff.mp low).2 1 first
  simp [refused,Bus.withPersistence,Nat.not_lt_of_le oldest]

-- A log that was never trimmed starts at seq 1, and the gate turns the cursor 0 away. From cursor 1 a log
-- of u32::MAX+2 rows loses its last one to the limit of the query.
theorem replay_not_always_whole :
    (∃ (events : List (Event String)) (sub : Subscription String),
      (run (System.step id) (.booted []) events).subscriptions = [sub] ∧
      (run (System.step id) (.booted []) events).bus.log.map (·.seq) = [1] ∧
      sub.since = some 0 ∧ sub.accepts = (fun _ => true) ∧ (∀ bus call,advance bus sub call = sub) ∧ written sub.frames = []) ∧
    ∃ sub : Subscription String,(run (System.step id) (.booted (seededLog (u32Max+2)))
        [.subscribe (some 1) (fun _ => true),.call 0 (.loadOldest none),.call 0 (.loadSince none)]).subscriptions = [sub] ∧
      ∀ (calls : List Call) env,
        env ∈ written (calls.foldl (advance (.withPersistence (seededLog (u32Max+2)) [])) sub).frames → env.seq ≠ u32Max+2 := by
  constructor
  · refine ⟨[.emits (.emitDurable "subject_merged" 30),.emits (.record true),.emits .broadcast,.emits .broadcast,
      .subscribe (some 0) (fun _ => true),.call 0 (.loadOldest none)],_,rfl,rfl,rfl,rfl,?_,rfl⟩
    intro bus call
    cases call <;> rfl
  · exact replay_misses _ 1 _ seededLog_allowed fun row member => replay_limited member

end EvoCore.Subscriptions
