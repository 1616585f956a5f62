import EvoCore.ReplayDelivery

namespace EvoCore.Subscriptions
open Runs HappeningBus
open Coalescer (HappeningEnvelope)

variable {η : Type} {kindStr : η → String} {bus : Bus η} {sub : Subscription η}

def received (bus : Bus η) (sub : Subscription η) : List (HappeningEnvelope η) := (bus.sent.take sub.position).drop sub.start

def Increasing (s : System η) : Prop :=
  ∀ sub,sub ∈ s.subscriptions → (written sub.frames).Pairwise fun a b => a.seq < b.seq

def Heard (s : System η) : Prop :=
  ∀ sub,sub ∈ s.subscriptions → ∀ env,env ∈ received s.bus sub → sub.accepts env.happening → env ∈ written sub.frames

-- The client reads the first k+1 frames, leaves, and comes back with the seq of the last one it read.
def Resumes (s : System η) : Prop :=
  ∀ sub next,sub ∈ s.subscriptions → next ∈ s.subscriptions →
    ∀ k env,(written sub.frames)[k]? = some env → next.since = some env.seq → CaughtUp s.bus next →
    ∀ row,row ∈ s.bus.log → sub.floor ≤ row.seq → sub.accepts row.payload → next.accepts row.payload →
      row.envelope ∈ (written sub.frames).take (k+1) ∨ row.envelope ∈ written next.frames

structure CursorSafe (s : System η) : Prop where
  increasing : Increasing s
  heard : Heard s
  resumes : Resumes s

-- The seq at or below which a subscription drops what it receives, as far as it is known.
def Subscription.edge (sub : Subscription η) : Nat :=
  match sub.commitment with
  | some (_,boundary) => boundary
  | none => sub.since.getD 0

-- A broadcast is above all that its receiver was sent and above its cursor, and in the log or above its boundary.
def Follows (bus : Bus η) (sub : Subscription η) (env : HappeningEnvelope η) : Prop :=
  (∀ old,old ∈ bus.sent.drop sub.start → old.seq < env.seq) ∧ sub.since.getD 0 < env.seq ∧
    (durable bus.log env ∨ sub.edge < env.seq)

def InTurn (s : System η) (env : HappeningEnvelope η) : Prop :=
  ∀ sub,sub ∈ s.subscriptions → sub.phase ≠ .closed → Follows s.bus sub env

-- A replay query finds every transient that its receiver was sent above the last row.
def AboveReplay (bus : Bus η) (sub : Subscription η) (cursor : Nat) : Prop :=
  ∀ env,env ∈ bus.sent.drop sub.start →
    durable bus.log env ∨ boundaryAfter (loadHappeningsSince bus.log cursor u32Max) cursor < env.seq

def Undisturbed (s : System η) : Event η → Prop
  | .emits event => ∀ env,s.bus.announced event = some env → InTurn s env
  | .subscribe _ _ => True
  | .call subscriber call => ∀ sub,s.subscriptions[subscriber]? = some sub →
      ∀ cursor,sub.asks call = some cursor → AboveReplay s.bus sub cursor

instance (bus : Bus η) (sub : Subscription η) (env : HappeningEnvelope η) : Decidable (Follows bus sub env) :=
  inferInstanceAs (Decidable ((∀ old,old ∈ bus.sent.drop sub.start → old.seq < env.seq) ∧ sub.since.getD 0 < env.seq ∧
    (durable bus.log env ∨ sub.edge < env.seq)))

instance [DecidableEq η] (s : System η) (env : HappeningEnvelope η) : Decidable (InTurn s env) :=
  inferInstanceAs (Decidable (∀ sub,sub ∈ s.subscriptions → sub.phase ≠ .closed → Follows s.bus sub env))

instance (bus : Bus η) (sub : Subscription η) (cursor : Nat) : Decidable (AboveReplay bus sub cursor) :=
  inferInstanceAs (Decidable (∀ env,env ∈ bus.sent.drop sub.start →
    durable bus.log env ∨ boundaryAfter (loadHappeningsSince bus.log cursor u32Max) cursor < env.seq))

instance [DecidableEq η] (s : System η) : DecidablePred (Undisturbed s)
  | .emits event => inferInstanceAs (Decidable (∀ env ∈ s.bus.announced event,InTurn s env))
  | .subscribe _ _ => isTrue trivial
  | .call subscriber call => inferInstanceAs (Decidable (∀ sub ∈ s.subscriptions[subscriber]?,
      ∀ cursor ∈ sub.asks call,AboveReplay s.bus sub cursor))

structure Steady (bus : Bus η) (sub : Subscription η) : Prop where
  begun : sub.start ≤ sub.position
  early : sub.phase = .subscribed ∨ sub.phase = .acked → sub.position = sub.start
  line : sub.phase ≠ .closed → (bus.sent.drop sub.start).Pairwise fun a b => a.seq < b.seq
  above : sub.phase ≠ .closed → ∀ env,env ∈ bus.sent.drop sub.start → sub.since.getD 0 < env.seq
  unbounded : sub.since = none → ∀ queue boundary,sub.commitment = some (queue,boundary) → boundary = 0
  passing : ∀ queue boundary,sub.commitment = some (queue,boundary) →
    ∀ env,env ∈ bus.sent.drop sub.start → durable bus.log env ∨ boundary < env.seq
  ordered : ∀ queue boundary,sub.commitment = some (queue,boundary) →
    (written sub.frames ++ queue.map (·.envelope)).Pairwise fun a b => a.seq < b.seq
  under : ∀ queue boundary,sub.commitment = some (queue,boundary) →
    ∀ env,env ∈ written sub.frames ++ queue.map (·.envelope) → env.seq ≤ boundary ∨ env ∈ received bus sub
  increasing : (written sub.frames).Pairwise fun a b => a.seq < b.seq
  heard : ∀ env,env ∈ received bus sub → sub.accepts env.happening → env ∈ written sub.frames
  replayed : (∀ boundary,sub.phase ≠ .live boundary) → ∀ env,env ∈ written sub.frames → durable bus.log env

theorem commitment_running (committed : sub.commitment = some way) : sub.phase ≠ .closed := by
  intro closed
  simp [Subscription.commitment,closed] at committed

theorem drop_split {sent : List (HappeningEnvelope η)} (begun : start ≤ position) (placed : position ≤ sent.length) :
    sent.drop start = (sent.take position).drop start ++ sent.drop position := by
  have shape : (sent.take position ++ sent.drop position).drop start = (sent.take position).drop start ++ sent.drop position := by
    apply List.drop_append_of_le_length
    rw [List.length_take,Nat.min_eq_left placed]
    exact begun
  rwa [List.take_append_drop] at shape

theorem received_grows {after : Bus η} (sent : after.sent = bus.sent ++ more) (placed : sub.position ≤ bus.sent.length) :
    received after sub = received bus sub := by
  rw [received,received,sent,List.take_append_of_le_length placed]

theorem Steady.silent {after : Bus η} (steady : Steady bus sub) (sent : after.sent = bus.sent)
    (grows : ∀ env,durable bus.log env → durable after.log env) : Steady after sub := by
  have same : received after sub = received bus sub := by rw [received,received,sent]
  refine ⟨steady.begun,steady.early,?_,?_,steady.unbounded,?_,steady.ordered,?_,steady.increasing,?_,?_⟩
  · rw [sent]
    exact steady.line
  · rw [sent]
    exact steady.above
  · intro queue boundary committed env member
    rw [sent] at member
    exact (steady.passing queue boundary committed env member).imp_left (grows env)
  · rw [same]
    exact steady.under
  · rw [same]
    exact steady.heard
  · exact fun notLive env member => grows env (steady.replayed notLive env member)

theorem Steady.sent {after : Bus η} (steady : Steady bus sub) (kept : Kept bus sub) (sent : after.sent = bus.sent ++ [env])
    (log : after.log = bus.log) (inTurn : sub.phase ≠ .closed → Follows bus sub env) : Steady after sub := by
  have same : received after sub = received bus sub := received_grows sent kept.placed
  have grown : after.sent.drop sub.start = bus.sent.drop sub.start ++ [env] := by
    rw [sent]
    exact List.drop_append_of_le_length (Nat.le_trans steady.begun kept.placed)
  refine ⟨steady.begun,steady.early,?_,?_,steady.unbounded,?_,steady.ordered,?_,steady.increasing,?_,?_⟩
  · intro running
    rw [grown,List.pairwise_append]
    refine ⟨steady.line running,by simp,?_⟩
    intro old before new last
    cases List.mem_singleton.mp last
    exact (inTurn running).1 old before
  · intro running other member
    rw [grown] at member
    rcases List.mem_append.mp member with old | new
    · exact steady.above running other old
    · cases List.mem_singleton.mp new
      exact (inTurn running).2.1
  · intro queue boundary committed other member
    have running := commitment_running committed
    rw [log]
    rw [grown] at member
    rcases List.mem_append.mp member with old | new
    · exact steady.passing queue boundary committed other old
    · cases List.mem_singleton.mp new
      simpa [Subscription.edge,committed] using (inTurn running).2.2
  · rw [same]
    exact steady.under
  · rw [same]
    exact steady.heard
  · rw [log]
    exact steady.replayed

theorem move_steady (steady : Steady bus sub) (kept : Kept bus sub) (move : Move kindStr bus out after)
    (inTurn : ∀ env,out = some env → sub.phase ≠ .closed → Follows bus sub env) : Steady after sub := by
  cases move with
  | idle => exact steady
  | mint happening => exact steady.silent rfl fun env logged => logged
  | send position there => exact steady.sent kept rfl rfl (inTurn _ rfl)
  | acquire happenings atMs free => exact steady.silent rfl fun env logged => logged
  | fail holds => exact steady.silent rfl fun env logged => logged
  | record holds =>
    refine steady.silent rfl ?_
    intro env logged
    obtain ⟨row,member,same⟩ := durable_iff.mp logged
    exact durable_iff.mpr ⟨row,List.mem_append_left _ member,same⟩
  | broadcast holds => exact steady.sent kept rfl rfl (inTurn _ rfl)
  | release holds => exact steady.silent rfl fun env logged => logged

theorem Steady.relabel (steady : Steady bus sub) (same : written frames = written sub.frames)
    (running : phase ≠ .closed → sub.phase ≠ .closed)
    (early : phase = .subscribed ∨ phase = .acked → sub.position = sub.start)
    (committed : ∀ way,{sub with phase := phase,frames := frames}.commitment = some way → sub.commitment = some way)
    (notLive : (∀ boundary,phase ≠ .live boundary) → ∀ boundary,sub.phase ≠ .live boundary) :
    Steady bus {sub with phase := phase,frames := frames} := by
  refine ⟨steady.begun,early,?_,?_,?_,?_,?_,?_,?_,?_,?_⟩
  · exact fun now => steady.line (running now)
  · exact fun now => steady.above (running now)
  · exact fun none queue boundary way => steady.unbounded none queue boundary (committed _ way)
  · exact fun queue boundary way => steady.passing queue boundary (committed _ way)
  · intro queue boundary way
    rw [same]
    exact steady.ordered queue boundary (committed _ way)
  · intro queue boundary way
    rw [same]
    exact steady.under queue boundary (committed _ way)
  · rw [same]
    exact steady.increasing
  · rw [same]
    exact steady.heard
  · intro now
    rw [same]
    exact steady.replayed (notLive now)

theorem Steady.queried (steady : Steady bus sub) (kept : Kept bus sub) (ordered : Ordered bus) (before : sub.phase = .acked)
    (since : sub.since = some cursor) (fits : (bus.log.filter fun row => asI64 cursor < row.seq).length ≤ u32Max)
    (above : AboveReplay bus sub cursor) :
    Steady bus {sub with phase := .replaying (loadHappeningsSince bus.log cursor u32Max) cursor} := by
  have ascending := ordered.log_ascending
  have rows := loadHappeningsSince_whole ascending fits
  have running : sub.phase ≠ .closed := by simp [before]
  refine ⟨steady.begun,by simp,fun _ => steady.line running,fun _ => steady.above running,by simp [since],?_,?_,?_,
    steady.increasing,steady.heard,fun _ => steady.replayed (by simp [before])⟩
  · intro queue boundary committed
    obtain ⟨rfl,rfl⟩ := commitment_replaying rfl committed
    exact above
  · intro queue boundary committed
    obtain ⟨rfl,rfl⟩ := commitment_replaying rfl committed
    rw [kept.silent (.inr before),rows,List.nil_append]
    exact List.pairwise_map.mpr (ascending.filter _)
  · intro queue boundary committed env member
    obtain ⟨rfl,rfl⟩ := commitment_replaying rfl committed
    rw [kept.silent (.inr before),rows,List.nil_append] at member
    obtain ⟨row,among,rfl⟩ := List.mem_map.mp member
    rw [rows]
    exact .inl (boundaryAfter_replay cursor ascending (List.mem_of_mem_filter among))

theorem written_row {row : PersistedHappening η} :
    (written (sub.frames ++ if sub.accepts row.payload then [.happening row.seq row.payload] else []) ++
      rest.map (·.envelope)).Sublist (written sub.frames ++ (row::rest).map (·.envelope)) := by
  by_cases accepted : sub.accepts row.payload
  · simp [accepted,PersistedHappening.envelope]
  · simp [accepted]

theorem Steady.rowReplayed {row : PersistedHappening η} (steady : Steady bus sub) (kept : Kept bus sub)
    (before : sub.phase = .replaying (row::rest) last) : Steady bus {sub with
      phase := .replaying rest row.seq
      frames := sub.frames ++ if sub.accepts row.payload then [.happening row.seq row.payload] else []} := by
  have committed : sub.commitment = some (row::rest,boundaryAfter (row::rest) last) := by simp [Subscription.commitment,before]
  have running : sub.phase ≠ .closed := by simp [before]
  have ordered := (steady.ordered _ _ committed).sublist written_row
  refine ⟨steady.begun,by simp,fun _ => steady.line running,fun _ => steady.above running,?_,?_,?_,?_,
    (List.pairwise_append.mp ordered).1,?_,?_⟩
  · intro none queue boundary way
    obtain ⟨-,rfl⟩ := commitment_replaying rfl way
    exact steady.unbounded none _ _ committed
  · intro queue boundary way
    obtain ⟨-,rfl⟩ := commitment_replaying rfl way
    exact steady.passing _ _ committed
  · intro queue boundary way
    obtain ⟨rfl,-⟩ := commitment_replaying rfl way
    exact ordered
  · intro queue boundary way env member
    obtain ⟨rfl,rfl⟩ := commitment_replaying rfl way
    exact steady.under _ _ committed env (written_row.subset member)
  · intro env got accepted
    rw [written_append]
    exact List.mem_append_left _ (steady.heard env got accepted)
  · intro _ env member
    rw [written_append] at member
    rcases List.mem_append.mp member with old | new
    · exact steady.replayed (by simp [before]) env old
    · split at new
      · rename_i accepted
        obtain ⟨low,-,way⟩ := kept.onTheWay _ _ committed
        cases List.mem_singleton.mp new
        exact way.queued accepted
      · cases new

theorem Steady.replays (steady : Steady bus sub) (kept : Kept bus sub) (ordered : Ordered bus)
    (committed : sub.commitment = some (queue,boundary)) (sent : env ∈ bus.sent.drop sub.start) (old : env.seq ≤ boundary)
    (accepted : sub.accepts env.happening) : env ∈ written sub.frames ++ queue.map (·.envelope) := by
  have above := steady.above (commitment_running committed) env sent
  rcases steady.passing queue boundary committed env sent with logged | late
  · obtain ⟨row,member,rfl⟩ := List.mem_map.mp (ordered.told env (List.mem_of_mem_drop sent) logged)
    obtain ⟨low,under,way⟩ := kept.onTheWay queue boundary committed
    cases since : sub.since with
    | none =>
      have zero := steady.unbounded since queue boundary committed
      omega
    | some cursor =>
      rw [since,Option.getD_some] at above
      have high : low ≤ row.seq := Nat.le_trans under (by simpa [Subscription.floor,since,PersistedHappening.envelope] using above)
      have among := taken_rowsFrom sub member high accepted
      rw [←way.whole,taken_append] at among
      rcases List.mem_append.mp among with out | waiting
      · exact List.mem_append_left _ (List.mem_of_mem_filter out)
      · rcases List.mem_append.mp waiting with queued | later
        · exact List.mem_append_right _ (List.mem_of_mem_filter queued)
        · have late := (List.mem_filter.mp (List.mem_of_mem_filter later)).2
          simp only [decide_eq_true_eq] at late
          omega
  · omega

theorem received_next (there : bus.sent[sub.position]? = some env) (begun : sub.start ≤ sub.position) :
    (bus.sent.take (sub.position+1)).drop sub.start = received bus sub ++ [env] := by
  obtain ⟨bound,rfl⟩ := List.getElem?_eq_some_iff.mp there
  rw [List.take_succ_eq_append_getElem bound,received]
  apply List.drop_append_of_le_length
  rw [List.length_take,Nat.min_eq_left (Nat.le_of_lt bound)]
  exact begun

theorem Steady.received_below (steady : Steady bus sub) (kept : Kept bus sub) (running : sub.phase ≠ .closed)
    (got : old ∈ received bus sub) (unread : env ∈ bus.sent.drop sub.position) : old.seq < env.seq := by
  have line := steady.line running
  rw [drop_split steady.begun kept.placed] at line
  exact (List.pairwise_append.mp line).2.2 old got env unread

theorem Steady.recv (steady : Steady bus sub) (kept : Kept bus sub) (ordered : Ordered bus) (before : sub.phase = .live boundary)
    (there : bus.sent[sub.position]? = some env) : Steady bus {sub with
      position := sub.position+1
      frames := sub.frames ++
        if env.seq ≤ boundary then []
        else if sub.accepts env.happening then [.happening env.seq env.happening] else []} := by
  have committed : sub.commitment = some ([],boundary) := by simp [Subscription.commitment,before]
  have running : sub.phase ≠ .closed := by simp [before]
  have next := received_next there steady.begun
  have unread : env ∈ bus.sent.drop sub.position := by
    rw [drop_next there]
    exact List.mem_append_left _ (List.mem_singleton_self env)
  have line : (written (sub.frames ++
      if env.seq ≤ boundary then []
      else if sub.accepts env.happening then [.happening env.seq env.happening] else [])).Pairwise fun a b => a.seq < b.seq := by
    rw [written_append,List.pairwise_append]
    refine ⟨steady.increasing,?_,?_⟩
    · split
      · exact .nil
      · split
        · exact List.pairwise_singleton ..
        · exact .nil
    · intro old out new last
      split at last
      · cases last
      · rename_i later
        split at last
        · cases List.mem_singleton.mp last
          rcases steady.under [] boundary committed old (List.mem_append_left _ out) with low | got
          · exact Nat.lt_of_le_of_lt low (Nat.lt_of_not_le later)
          · exact steady.received_below kept running got unread
        · cases last
  refine ⟨Nat.le_succ_of_le steady.begun,by simp [before],steady.line,steady.above,steady.unbounded,steady.passing,?_,?_,line,?_,?_⟩
  · intro queue edge way
    obtain ⟨rfl,rfl⟩ := commitment_live before way
    simpa using line
  · intro queue edge way other member
    obtain ⟨rfl,rfl⟩ := commitment_live before way
    simp only [received,next,List.map_nil,List.append_nil,written_append,List.mem_append] at member ⊢
    rcases member with old | new
    · exact (steady.under [] _ committed other (List.mem_append_left _ old)).imp_right fun got => .inl got
    · split at new
      · cases new
      · split at new
        · exact .inr (.inr new)
        · cases new
  · intro other got accepted
    simp only [received,next,List.mem_append] at got
    rw [written_append]
    rcases got with old | new
    · exact List.mem_append_left _ (steady.heard other old accepted)
    · cases List.mem_singleton.mp new
      by_cases low : env.seq ≤ boundary
      · apply List.mem_append_left
        have sent : env ∈ bus.sent.drop sub.start := by
          rw [drop_split steady.begun kept.placed]
          exact List.mem_append_right _ unread
        simpa using steady.replays kept ordered committed sent low accepted
      · have taken : sub.accepts env.happening := accepted
        apply List.mem_append_right
        simp [low,taken]
  · intro notLive
    exact absurd before (notLive boundary)

theorem turn_steady (steady : Steady bus sub) (kept : Kept bus sub) (ordered : Ordered bus) (turn : Turn bus sub asked after)
    (fits : ∀ cursor,asked = some cursor → (bus.log.filter fun row => asI64 cursor < row.seq).length ≤ u32Max)
    (above : ∀ cursor,asked = some cursor → AboveReplay bus sub cursor) : Steady bus after := by
  cases turn with
  | idle => exact steady
  | close error before =>
    exact steady.relabel (by simp) (by simp) (by simp) (by simp [Subscription.commitment]) fun _ => before
  | ack before =>
    refine steady.relabel (by simp) (by simp [before]) (fun _ => steady.early (.inl before)) ?_ (by simp [before])
    exact fun way committed => (commitment_ack before).symm.trans committed
  | unreplayed before live =>
    exact steady.relabel rfl (by simp [before]) (by simp) (by simp [Subscription.commitment,before,live]) (by simp)
  | query before since => exact steady.queried kept ordered before since (fits _ rfl) (above _ rfl)
  | row before => exact steady.rowReplayed kept before
  | replayed before =>
    exact steady.relabel rfl (by simp [before]) (by simp) (by simp [Subscription.commitment,before,boundaryAfter]) (by simp)
  | recv before there => exact steady.recv kept ordered before there

theorem subscribe_commitment (way : (subscribeWithCurrentSeq bus since accepts).commitment = some (queue,boundary)) :
    queue = [] ∧ boundary = 0 := by
  cases since with
  | some cursor => simp [subscribeWithCurrentSeq,Subscription.commitment] at way
  | none =>
    simp only [subscribeWithCurrentSeq,Subscription.commitment,Option.some.injEq,Prod.mk.injEq] at way
    exact ⟨way.1.symm,way.2.symm⟩

theorem subscribe_steady : Steady bus (subscribeWithCurrentSeq bus since accepts) := by
  refine ⟨Nat.le_refl _,fun _ => rfl,?_,?_,?_,?_,?_,?_,?_,?_,?_⟩
  · simp [subscribeWithCurrentSeq]
  · simp [subscribeWithCurrentSeq]
  · exact fun _ queue boundary way => (subscribe_commitment way).2
  · simp [subscribeWithCurrentSeq]
  · intro queue boundary way
    obtain ⟨rfl,-⟩ := subscribe_commitment way
    exact .nil
  · intro queue boundary way
    obtain ⟨rfl,-⟩ := subscribe_commitment way
    simp [subscribeWithCurrentSeq]
  · exact .nil
  · simp [received,subscribeWithCurrentSeq]
  · simp [subscribeWithCurrentSeq]

structure Calm (s : System η) : Prop where
  sound : Sound s
  steady : ∀ sub,sub ∈ s.subscriptions → Steady s.bus sub

theorem step_calm (calm : Calm s) (fits : ReplayFits s event) (undisturbed : Undisturbed s event) :
    Calm (s.step kindStr event) := by
  refine ⟨step_sound calm.sound fits,?_⟩
  cases event with
  | emits event =>
    intro sub member
    apply move_steady (calm.steady sub member) (calm.sound.kept sub member) step_move
    exact fun env out => undisturbed env out sub member
  | subscribe since accepts =>
    simp only [System.step]
    cases free : s.bus.emitLock with
    | some emission => exact calm.steady
    | none =>
      intro sub member
      rcases List.mem_append.mp member with old | new
      · exact calm.steady sub old
      · cases List.mem_singleton.mp new
        exact subscribe_steady
  | call subscriber call =>
    simp only [System.step]
    cases there : s.subscriptions[subscriber]? with
    | none => exact calm.steady
    | some sub =>
      intro other member
      have known := List.mem_of_getElem? there
      rcases List.mem_or_eq_of_mem_set member with old | rfl
      · exact calm.steady other old
      · exact turn_steady (calm.steady sub known) (calm.sound.kept sub known) calm.sound.ordered advance_turn
          (fun cursor asked => fits sub cursor there asked) fun cursor asked => undisturbed sub there cursor asked

-- Up to any frame a subscription has skipped no row, whatever was broadcast in between.
theorem Steady.unbroken (steady : Steady bus sub) (kept : Kept bus sub) (ordered : Ordered bus) (free : bus.emitLock = none)
    (member : row ∈ bus.log) (high : sub.floor ≤ row.seq) (accepted : sub.accepts row.payload)
    (frame : env ∈ written sub.frames) (reached : row.seq ≤ env.seq) : row.envelope ∈ written sub.frames := by
  by_cases logged : durable bus.log env
  · exact kept.unbroken ordered member high accepted frame logged reached
  · cases phase : sub.phase with
    | live boundary =>
      have committed : sub.commitment = some ([],boundary) := by simp [Subscription.commitment,phase]
      obtain ⟨low,under,way⟩ := kept.onTheWay [] boundary committed
      have among := taken_rowsFrom sub member (Nat.le_trans under high) accepted
      rw [←way.whole] at among
      rcases List.mem_append.mp among with out | later
      · exact List.mem_of_mem_filter out
      · have waiting : row.envelope ∈ owed bus sub.position boundary := by simpa using List.mem_of_mem_filter later
        have late : boundary < row.seq := of_decide_eq_true (List.mem_filter.mp waiting).2
        have unread : row.envelope ∈ bus.sent.drop sub.position := by
          have either := List.mem_of_mem_filter waiting
          simp only [Bus.left,free,List.append_nil] at either
          exact List.mem_of_mem_filter either
        rcases steady.under [] boundary committed env (List.mem_append_left _ frame) with low | got
        · omega
        · have below := steady.received_below kept (by simp [phase]) got unread
          simp only [PersistedHappening.envelope] at below
          omega
    | _ => exact absurd (steady.replayed (by simp [phase]) env frame) logged

theorem mem_take_of_seq {envs : List (HappeningEnvelope η)} (ascending : envs.Pairwise fun a b => a.seq < b.seq)
    (there : envs[k]? = some env) (member : other ∈ envs) (reached : other.seq ≤ env.seq) : other ∈ envs.take (k+1) := by
  obtain ⟨bound,rfl⟩ := List.getElem?_eq_some_iff.mp there
  rw [←List.take_append_drop (k+1) envs] at member
  rcases List.mem_append.mp member with early | late
  · exact early
  · have split : (envs.take (k+1) ++ envs.drop (k+1)).Pairwise fun a b => a.seq < b.seq := by rwa [List.take_append_drop]
    have inside : envs[k] ∈ envs.take (k+1) := by
      rw [List.take_succ_eq_append_getElem bound]
      exact List.mem_append_right _ (List.mem_singleton_self _)
    have below := (List.pairwise_append.mp split).2.2 envs[k] inside other late
    omega

theorem Calm.resumes (calm : Calm s) : Resumes (η := η) s := by
  intro sub next first second k env there since done row member high accepted taken
  have kept := calm.sound.kept sub first
  have steady := calm.steady sub first
  by_cases reached : row.seq ≤ env.seq
  · left
    have frame := List.mem_of_getElem? there
    have out := steady.unbroken kept calm.sound.ordered done.2.2 member high accepted frame reached
    exact mem_take_of_seq steady.increasing there out reached
  · right
    have floor : next.floor ≤ row.seq := by
      simp only [Subscription.floor,since,Option.getD_some]
      omega
    have once := (calm.sound.kept next second).once calm.sound.ordered done member floor taken
    have among : row.envelope ∈ (written next.frames).filter fun env => env.seq = row.seq := by simp [once]
    exact List.mem_of_mem_filter among

theorem Calm.cursorSafe (calm : Calm s) : CursorSafe (η := η) s :=
  ⟨fun sub member => (calm.steady sub member).increasing,fun sub member => (calm.steady sub member).heard,calm.resumes⟩

theorem cursor_resume_safe (log : List (PersistedHappening η)) (ascending : log.Pairwise fun a b => a.seq < b.seq)
    (events : List (Event η))
    (undisturbed : Guarded (System.step kindStr) (fun s event => ReplayFits s event ∧ Undisturbed s event) (.booted log) events) :
    Throughout (System.step kindStr) CursorSafe (.booted log) events := by
  have calm : Throughout (System.step kindStr) Calm (.booted log) events := by
    apply guarded_keeps ?_ ⟨booted_sound ascending,by simp [System.booted]⟩ undisturbed
    exact fun s event held met => step_calm held met.1 met.2
  apply throughout_prefixes.mpr
  intro k
  exact (throughout_prefixes.mp calm k).cursorSafe

-- A transient goes out in a quiet moment; the client comes back after it and finds the row that follows.
def quiet : List (Event String) :=
  [.subscribe none (fun _ => true),.call 0 (.loadOldest none),.call 0 (.loadSince none),
    .emits (.emitDurable "custody_taken" 10),.emits (.record true),.emits .broadcast,.emits .broadcast,.call 0 .recv,
    .emits (.emit "flight_mode_changed"),.emits (.send 0),.call 0 .recv,
    .emits (.emitDurable "custody_released" 20),.emits (.record true),.emits .broadcast,.emits .broadcast,
    .subscribe (some 2) (fun _ => true),.call 1 (.loadOldest none),.call 1 (.loadSince none),.call 1 (.replayRow none),
    .call 1 (.replayRow none)]

theorem quiet_cursors_safe :
    (run (System.step id) (.booted []) quiet).subscriptions.map (fun sub => (written sub.frames).map (·.seq)) = [[1,2],[3]] ∧
    Throughout (System.step id) CursorSafe (.booted []) quiet := by
  refine ⟨by decide,cursor_resume_safe _ .nil _ ?_⟩
  apply guarded_positions.mpr
  intro k event there
  obtain ⟨bound,rfl⟩ := List.getElem?_eq_some_iff.mp there
  have short : ∀ k,k < quiet.length → (run (System.step id) (.booted []) (quiet.take k)).bus.log.length ≤ u32Max := by decide
  have calm : ∀ k (bound : k < quiet.length),Undisturbed (run (System.step id) (.booted []) (quiet.take k)) quiet[k] := by decide
  exact ⟨replayFits_short (short k bound),calm k bound⟩

-- The transient 2 overtakes the row 1 that is still at the store.
def overtaking : List (Event String) :=
  [.subscribe none (fun _ => true),.call 0 (.loadOldest none),.call 0 (.loadSince none),
    .emits (.emitDurable "custody_taken" 10),.emits (.emit "flight_mode_changed"),.emits (.send 0),.call 0 .recv,
    .emits (.record true),.emits .broadcast,.emits .broadcast,.call 0 .recv,
    .subscribe (some 2) (fun _ => true),.call 1 (.loadOldest none),.call 1 (.loadSince none),.call 1 (.replayRow none)]

-- The transient 1 is in the receiver when the replay query finds the row 2.
def dropping : List (Event String) :=
  [.subscribe (some 0) (fun _ => true),.call 0 (.loadOldest none),.emits (.emit "flight_mode_changed"),.emits (.send 0),
    .emits (.emitDurable "custody_taken" 10),.emits (.record true),.call 0 (.loadSince none),.emits .broadcast,
    .emits .broadcast,.call 0 (.replayRow none),.call 0 (.replayRow none),.call 0 .recv]

theorem transient_breaks_cursors :
    ¬ Increasing (run (System.step id) (.booted []) overtaking) ∧
    ¬ Heard (run (System.step id) (.booted []) dropping) ∧
    ¬ Resumes (run (System.step id) (.booted []) overtaking) := by
  refine ⟨?_,?_,?_⟩
  · intro increasing
    have first := increasing _ (List.mem_of_getElem? (i := 0) rfl)
    exact absurd first (by decide)
  · intro heard
    have first := heard _ (List.mem_of_getElem? (i := 0) rfl) ⟨1,"flight_mode_changed"⟩ (by decide) rfl
    exact absurd first (by decide)
  · intro resumes
    have missed := resumes _ _ (List.mem_of_getElem? (i := 0) rfl) (List.mem_of_getElem? (i := 1) rfl) 0
      ⟨2,"flight_mode_changed"⟩ rfl rfl ⟨⟨2,rfl⟩,rfl,rfl⟩ ⟨1,"custody_taken","custody_taken",10⟩ (by decide) (by decide) rfl rfl
    exact absurd missed (by decide)

end EvoCore.Subscriptions
