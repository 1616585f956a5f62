import EvoCore.Coalescer

namespace EvoCore.CoalescedBuckets
open Tables Runs Coalescer

-- The labels of Happening::CustodyTaken.
structure CustodyTaken where
  plugin : String
  handleId : String
  shelf : String
  custodyType : String
deriving DecidableEq,Repr

def CustodyTaken.labels (h : CustodyTaken) (label : String) : Option String :=
  [("variant","custody_taken"),("plugin",h.plugin),("handle_id",h.handleId),("shelf",h.shelf),("custody_type",h.custodyType)].lookup label

variable {η : Type}

-- The coalescer with what it was given, what it gave back at once, and what it gave out later next to
-- the envelopes each of these stands for. A buffered envelope waits with the key of its bucket.
structure Ledger (η : Type) where
  coalescer : Coalescer η
  observed : List (HappeningEnvelope η)
  passed : List (HappeningEnvelope η)
  waiting : List (String × HappeningEnvelope η)
  emitted : List (HappeningEnvelope η)
  standsFor : List (List (HappeningEnvelope η))

def Ledger.new (config : CoalesceConfig) : Ledger η := ⟨.new config,[],[],[],[],[]⟩

def absorbed (waiting : List (String × HappeningEnvelope η)) (key : String) : List (HappeningEnvelope η) :=
  (waiting.filter fun w => w.1 = key).map (·.2)

def Ledger.settle (s : Ledger η) (keys : List String) (out : List (Delivery η) × Coalescer η) : Ledger η :=
  {s with
    coalescer := out.2
    waiting := s.waiting.filter fun w => w.1 ∉ keys
    emitted := s.emitted ++ out.1.map (·.envelope)
    standsFor := s.standsFor ++ keys.map (absorbed s.waiting)}

variable (labels : η → String → Option String)

def Ledger.step (s : Ledger η) : Call η → Ledger η
  | .observe now env =>
    {s with
      coalescer := (observe labels s.coalescer now env).2
      observed := s.observed ++ [env]
      passed := s.passed ++ (observe labels s.coalescer now env).1.toList
      waiting := s.waiting ++ (buildKey (labels env.happening) s.coalescer.config.labels).toList.map (·,env)}
  | .flushExpired order now => s.settle (flushKeys s.coalescer order now) (flushExpired s.coalescer order now)
  | .drain order => s.settle (order.order s.coalescer.buckets.keys) (drain s.coalescer order)

def observedIn : List (Call η) → List (HappeningEnvelope η)
  | [] => []
  | .observe _ env::rest => env::observedIn rest
  | .flushExpired _ _::rest => observedIn rest
  | .drain _::rest => observedIn rest

def Agree (requested : List String) (a b : HappeningEnvelope η) : Prop :=
  ∀ label ∈ requested,labels a.happening label = labels b.happening label

-- The payload is that of the last envelope or of the first.
def Carries (selection : CoalesceSelection) (payload : η) (group : List (HappeningEnvelope η)) : Prop :=
  (match selection with
    | .latest => group.getLast?
    | .first => group.head?).map HappeningEnvelope.happening = some payload

structure Exact (config : CoalesceConfig) (stream : List (HappeningEnvelope η)) (s : Ledger η) : Prop where
  accounted : (s.passed ++ s.standsFor.flatten).Perm stream
  carried : List.Forall₂ (fun env group => Carries config.selection env.happening group) s.emitted s.standsFor
  agreeing : ∀ group ∈ s.standsFor,∀ a ∈ group,∀ b ∈ group,Agree labels config.labels a b

-- The keys tell apart whatever differs on a requested label.
def Unambiguous (requested : List String) (stream : List (HappeningEnvelope η)) : Prop :=
  ∀ a ∈ stream,∀ b ∈ stream,∀ key,buildKey (labels a.happening) requested = some key →
    buildKey (labels b.happening) requested = some key → Agree labels requested a b

variable {labels} {s : Ledger η} {keys : List String} {buckets : Table String (Bucket η)} {waiting : List (String × HappeningEnvelope η)}
  {env : HappeningEnvelope η} {key : String} {config : CoalesceConfig} {stream : List (HappeningEnvelope η)}

@[simp] theorem absorbed_snoc : absorbed (waiting ++ [(key,env)]) k = absorbed waiting k ++ if key = k then [env] else [] := by
  unfold absorbed
  split
  · rename_i same
    simp [same]
  · rename_i other
    simp [other]

theorem mem_absorbed : env ∈ absorbed waiting key ↔ (key,env) ∈ waiting := by
  simp [absorbed]

theorem absorbed_left (kept : key ∉ keys) : absorbed (waiting.filter fun w => w.1 ∉ keys) key = absorbed waiting key := by
  unfold absorbed
  rw [List.filter_filter]
  congr 1
  apply List.filter_congr
  intro w _
  by_cases same : w.1 = key
  · simp [same,kept]
  · simp [same]

theorem absorbed_settled (gone : key ∈ keys) : absorbed (waiting.filter fun w => w.1 ∉ keys) key = [] := by
  rw [List.eq_nil_iff_forall_not_mem]
  intro env member
  have left_ := (List.mem_filter.mp (mem_absorbed.mp member)).2
  exact absurd gone (of_decide_eq_true left_)

theorem settled_perm (apart : keys.Nodup) (waiting : List (String × HappeningEnvelope η)) :
    ((keys.map (absorbed waiting)).flatten ++ (waiting.filter fun w => w.1 ∉ keys).map (·.2)).Perm (waiting.map (·.2)) := by
  induction keys with
  | nil => simp
  | cons key rest ih =>
    have split_ : (waiting.filter fun w => w.1 ∉ rest).Perm
        ((waiting.filter fun w => w.1 = key) ++ waiting.filter fun w => w.1 ∉ key::rest) := by
      have parts := (List.filter_append_perm (fun w => decide (w.1 = key)) (waiting.filter fun w => w.1 ∉ rest)).symm
      rw [List.filter_filter,List.filter_filter] at parts
      have mine : (waiting.filter fun w => decide (w.1 = key) && decide (w.1 ∉ rest)) = waiting.filter fun w => decide (w.1 = key) := by
        apply List.filter_congr
        intro w _
        by_cases same : w.1 = key
        · simp [same,(List.nodup_cons.mp apart).1]
        · simp [same]
      have others : (waiting.filter fun w => !decide (w.1 = key) && decide (w.1 ∉ rest)) = waiting.filter fun w => w.1 ∉ key::rest := by
        apply List.filter_congr
        intro w _
        simp [List.mem_cons,not_or]
      rwa [mine,others] at parts
    have left_ := split_.map (·.2)
    rw [List.map_append] at left_
    have earlier := ih (List.nodup_cons.mp apart).2
    rw [List.map_cons,List.flatten_cons,List.append_assoc]
    have swapped : (absorbed waiting key ++ ((rest.map (absorbed waiting)).flatten ++ (waiting.filter fun w => w.1 ∉ key::rest).map (·.2))).Perm
        ((rest.map (absorbed waiting)).flatten ++ (absorbed waiting key ++ (waiting.filter fun w => w.1 ∉ key::rest).map (·.2))) :=
      List.perm_append_comm_assoc _ _ _
    exact (swapped.trans (left_.symm.append_left _)).trans earlier

theorem emit_groups {holds : Delivery η → List (HappeningEnvelope η) → Prop} {group : String → List (HappeningEnvelope η)}
    (apart : keys.Nodup) (present : ∀ key ∈ keys,∃ b,get buckets key = some b)
    (each : ∀ key b,get buckets key = some b → holds b.delivery (group key)) :
    List.Forall₂ holds (emit buckets keys).1 (keys.map group) := by
  induction keys generalizing buckets with
  | nil => exact .nil
  | cons key rest ih =>
    obtain ⟨b,there⟩ := present key List.mem_cons_self
    have outside := (List.nodup_cons.mp apart).1
    have others : ∀ k other,get (buckets.erase key) k = some other → get buckets k = some other := by
      intro k other here
      rw [get_erase] at here
      split at here
      · cases here
      · exact here
    have still : ∀ k ∈ rest,∃ b,get (buckets.erase key) k = some b := by
      intro k member
      obtain ⟨other,here⟩ := present k (List.mem_cons_of_mem _ member)
      have different : k ≠ key := fun same => outside (same ▸ member)
      exact ⟨other,by rw [get_erase,if_neg different,here]⟩
    simp only [emit,there,List.map_cons]
    exact .cons (each key b there) (ih (List.nodup_cons.mp apart).2 still fun k other here => each k other (others k other here))

theorem get_emit (keys : List String) (buckets : Table String (Bucket η)) :
    get (emit buckets keys).2 k = if k ∈ keys then none else get buckets k := by
  induction keys generalizing buckets with
  | nil => rfl
  | cons key rest ih =>
    cases there : get buckets key with
    | none =>
      simp only [emit,there,ih,List.mem_cons]
      by_cases same : k = key
      · simp [same,there]
      · simp [same]
    | some b =>
      simp only [emit,there,ih,List.mem_cons,get_erase]
      by_cases same : k = key
      · simp [same]
      · simp [same]

-- What every envelope given so far is: passed, in one of the groups that are out, or waiting.
structure Kept (labels : η → String → Option String) (config : CoalesceConfig) (s : Ledger η) : Prop where
  configured : s.coalescer.config = config
  accounted : (s.passed ++ s.standsFor.flatten ++ s.waiting.map (·.2)).Perm s.observed
  carried : List.Forall₂ (fun env group => Carries config.selection env.happening group) s.emitted s.standsFor
  keyed : ∀ w ∈ s.waiting,buildKey (labels w.2.happening) config.labels = some w.1
  together : ∀ group ∈ s.standsFor,∃ key,∀ env ∈ group,buildKey (labels env.happening) config.labels = some key
  closed : ∀ key,get s.coalescer.buckets key = none → absorbed s.waiting key = []
  opened : ∀ key b,get s.coalescer.buckets key = some b → Carries config.selection b.candidate (absorbed s.waiting key)

theorem new_kept (labels : η → String → Option String) (config : CoalesceConfig) : Kept labels config (.new config) where
  configured := rfl
  accounted := .nil
  carried := .nil
  keyed _ member := by cases member
  together _ member := by cases member
  closed _ _ := rfl
  opened key b there := by
    have empty : get (∅ : Table String (Bucket η)) key = some b := there
    rw [get_empty] at empty
    cases empty

theorem carries_joined (selection : CoalesceSelection) {b : Bucket η} {group : List (HappeningEnvelope η)}
    (carries : Carries selection b.candidate group) (env : HappeningEnvelope η) :
    Carries selection (if selection = .latest then env.happening else b.candidate) (group ++ [env]) := by
  cases selection with
  | latest => simp [Carries]
  | first =>
    cases group with
    | nil => simp [Carries] at carries
    | cons head rest => simpa [Carries] using carries

theorem buffered_kept (kept : Kept labels config s) (keyed : buildKey (labels env.happening) config.labels = some key) (new : Bucket η)
    (carries : Carries config.selection new.candidate (absorbed s.waiting key ++ [env])) :
    Kept labels config {s with
      coalescer := {s.coalescer with buckets := s.coalescer.buckets.insert key new}
      observed := s.observed ++ [env]
      waiting := s.waiting ++ [(key,env)]} := by
  refine ⟨kept.configured,?_,kept.carried,?_,kept.together,?_,?_⟩
  · rw [List.map_append,← List.append_assoc]
    exact kept.accounted.append_right [env]
  · intro w member
    rcases List.mem_append.mp member with old | last
    · exact kept.keyed w old
    · rw [List.mem_singleton.mp last]
      exact keyed
  · intro k none_
    simp only [get_insert] at none_
    split at none_
    · cases none_
    · rename_i other
      rw [absorbed_snoc,if_neg (Ne.symm other),List.append_nil]
      exact kept.closed k none_
  · intro k b there
    simp only [get_insert] at there
    split at there
    · rename_i same
      cases there
      rw [absorbed_snoc,if_pos same.symm,same]
      exact carries
    · rename_i other
      rw [absorbed_snoc,if_neg (Ne.symm other),List.append_nil]
      exact kept.opened k b there

theorem observe_kept (kept : Kept labels config s) (now : Nat) (env : HappeningEnvelope η) :
    Kept labels config (s.step labels (.observe now env)) := by
  have shape := kept.configured
  cases keyed : buildKey (labels env.happening) config.labels with
  | none =>
    have step : s.step labels (.observe now env) = {s with observed := s.observed ++ [env],passed := s.passed ++ [env]} := by
      simp [Ledger.step,observe,shape,keyed]
    rw [step]
    refine ⟨shape,?_,kept.carried,kept.keyed,kept.together,kept.closed,kept.opened⟩
    have moved : ([env] ++ (s.standsFor.flatten ++ s.waiting.map (·.2))).Perm (s.standsFor.flatten ++ s.waiting.map (·.2) ++ [env]) :=
      List.perm_append_comm
    have front := moved.append_left s.passed
    simp only [← List.append_assoc] at front
    exact front.trans (kept.accounted.append_right [env])
  | some key =>
    cases there : get s.coalescer.buckets key with
    | none =>
      have step : s.step labels (.observe now env) = {s with
          coalescer := opened s.coalescer key now env
          observed := s.observed ++ [env]
          waiting := s.waiting ++ [(key,env)]} := by
        simp [Ledger.step,observe,shape,keyed,there]
      rw [step]
      refine buffered_kept kept keyed _ ?_
      rw [kept.closed key there]
      cases selection : config.selection with
      | latest => rfl
      | first => rfl
    | some b =>
      have step : s.step labels (.observe now env) = {s with
          coalescer := joined s.coalescer key b env
          observed := s.observed ++ [env]
          waiting := s.waiting ++ [(key,env)]} := by
        simp [Ledger.step,observe,shape,keyed,there]
      rw [step]
      refine buffered_kept kept keyed _ ?_
      rw [shape]
      exact carries_joined config.selection (kept.opened key b there) env

theorem settle_kept (kept : Kept labels config s) (apart : keys.Nodup) (present : ∀ key ∈ keys,∃ b,get s.coalescer.buckets key = some b) :
    Kept labels config (s.settle keys ((emit s.coalescer.buckets keys).1,{s.coalescer with buckets := (emit s.coalescer.buckets keys).2})) := by
  refine ⟨kept.configured,?_,?_,?_,?_,?_,?_⟩
  · have groups := (settled_perm apart s.waiting).append_left (s.passed ++ s.standsFor.flatten)
    have shape : s.passed ++ (s.standsFor ++ keys.map (absorbed s.waiting)).flatten ++ (s.waiting.filter fun w => w.1 ∉ keys).map (·.2) =
        s.passed ++ s.standsFor.flatten ++ ((keys.map (absorbed s.waiting)).flatten ++ (s.waiting.filter fun w => w.1 ∉ keys).map (·.2)) := by
      simp only [List.flatten_append,List.append_assoc]
    exact shape ▸ groups.trans kept.accounted
  · refine List.rel_append kept.carried ?_
    rw [List.forall₂_map_left_iff]
    exact emit_groups apart present fun key b there => kept.opened key b there
  · exact fun w member => kept.keyed w (List.mem_of_mem_filter member)
  · intro group member
    rcases List.mem_append.mp member with old | new
    · exact kept.together group old
    · obtain ⟨key,_,rfl⟩ := List.mem_map.mp new
      exact ⟨key,fun env inside => kept.keyed (key,env) (mem_absorbed.mp inside)⟩
  · intro key none_
    by_cases gone : key ∈ keys
    · exact absorbed_settled gone
    · have before : get s.coalescer.buckets key = none := by
        rw [← none_]
        exact (get_emit keys s.coalescer.buckets).trans (if_neg gone) |>.symm
      exact (absorbed_left gone).trans (kept.closed key before)
  · intro key b there
    have emitted := (get_emit keys s.coalescer.buckets).symm.trans there
    split at emitted
    · cases emitted
    · rename_i stays
      have left_ := kept.opened key b emitted
      rwa [← absorbed_left stays] at left_

theorem flush_present (c : Coalescer η) (order : KeyOrder) (now : Nat) :
    (flushKeys c order now).Nodup ∧ ∀ key ∈ flushKeys c order now,∃ b,get c.buckets key = some b := by
  have listed := order.complete c.buckets.keys
  refine ⟨(listed.nodup_iff.mpr c.buckets.nodupKeys).filter _,fun key member => ?_⟩
  exact (mem_keys c.buckets).mp (listed.mem_iff.mp (List.mem_of_mem_filter member))

theorem drain_present (c : Coalescer η) (order : KeyOrder) :
    (order.order c.buckets.keys).Nodup ∧ ∀ key ∈ order.order c.buckets.keys,∃ b,get c.buckets key = some b := by
  have listed := order.complete c.buckets.keys
  exact ⟨listed.nodup_iff.mpr c.buckets.nodupKeys,fun key member => (mem_keys c.buckets).mp (listed.mem_iff.mp member)⟩

theorem step_kept (kept : Kept labels config s) (call : Call η) : Kept labels config (s.step labels call) := by
  cases call with
  | observe now env => exact observe_kept kept now env
  | flushExpired order now =>
    obtain ⟨apart,present⟩ := flush_present s.coalescer order now
    exact settle_kept kept apart present
  | drain order =>
    obtain ⟨apart,present⟩ := drain_present s.coalescer order
    exact settle_kept kept apart present

theorem run_kept (labels : η → String → Option String) (config : CoalesceConfig) (calls : List (Call η)) :
    Kept labels config (run (Ledger.step labels) (.new config) calls) :=
  run_keeps (fun _ call kept => step_kept kept call) (new_kept labels config)

theorem run_observed (calls : List (Call η)) (s : Ledger η) :
    (run (Ledger.step labels) s calls).observed = s.observed ++ observedIn calls := by
  induction calls generalizing s with
  | nil => simp [observedIn]
  | cons call rest ih =>
    rw [run_cons,ih]
    cases call with
    | observe now env => simp [Ledger.step,observedIn]
    | flushExpired order now => rfl
    | drain order => rfl

theorem drained_nothing_waits (kept : Kept labels config s) (order : KeyOrder) : (s.step labels (.drain order)).waiting = [] := by
  rw [List.eq_nil_iff_forall_not_mem]
  intro w member
  obtain ⟨inside,left_⟩ := List.mem_filter.mp member
  have gone : w.1 ∉ order.order s.coalescer.buckets.keys := of_decide_eq_true left_
  rw [(order.complete s.coalescer.buckets.keys).mem_iff,mem_keys] at gone
  cases there : get s.coalescer.buckets w.1 with
  | none =>
    have waits : w.2 ∈ absorbed s.waiting w.1 := mem_absorbed.mpr inside
    rw [kept.closed w.1 there] at waits
    cases waits
  | some b => exact gone ⟨b,there⟩

theorem drained_exact (calls : List (Call η)) (order : KeyOrder) (given : observedIn calls = stream) :
    Exact labels config stream (run (Ledger.step labels) (.new config) (calls ++ [Call.drain order])) ↔
      ∀ group ∈ (run (Ledger.step labels) (.new config) (calls ++ [Call.drain order])).standsFor,
        ∀ a ∈ group,∀ b ∈ group,Agree labels config.labels a b := by
  have kept := run_kept labels config (calls ++ [Call.drain order])
  have nothing : (run (Ledger.step labels) (.new config) (calls ++ [Call.drain order])).waiting = [] := by
    rw [run_snoc]
    exact drained_nothing_waits (run_kept labels config calls) order
  have observed : (run (Ledger.step labels) (.new config) (calls ++ [Call.drain order])).observed = stream := by
    rw [run_snoc,← given]
    exact run_observed calls (.new config)
  have accounted := kept.accounted
  rw [nothing,observed,List.map_nil,List.append_nil] at accounted
  exact ⟨fun exact_ => exact_.agreeing,fun agreeing => ⟨accounted,kept.carried,agreeing⟩⟩

-- Everything is observed before anything goes out.
def allAtOnce (stream : List (HappeningEnvelope η)) : List (Call η) := stream.map (.observe 0)

theorem allAtOnce_observed (stream : List (HappeningEnvelope η)) : observedIn (allAtOnce stream) = stream := by
  induction stream with
  | nil => rfl
  | cons env rest ih => rw [allAtOnce,List.map_cons,observedIn,← allAtOnce,ih]

theorem allAtOnce_waits (kept : Kept labels config s) (stream : List (HappeningEnvelope η)) (member : env ∈ stream)
    (keyed : buildKey (labels env.happening) config.labels = some key) :
    (key,env) ∈ (run (Ledger.step labels) s (allAtOnce stream)).waiting := by
  induction stream using List.reverseRecOn with
  | nil => cases member
  | append_singleton front last ih =>
    have shape : allAtOnce (front ++ [last]) = allAtOnce front ++ [Call.observe 0 last] := by simp [allAtOnce]
    have after : Kept labels config (run (Ledger.step labels) s (allAtOnce front)) := run_keeps (fun _ call kept => step_kept kept call) kept
    rw [shape,run_snoc]
    refine List.mem_append.mpr ?_
    rcases List.mem_append.mp member with old | new
    · exact .inl (ih old)
    · rw [List.mem_singleton.mp new] at keyed ⊢
      rw [after.configured,keyed]
      exact .inr List.mem_cons_self

-- What holds of all pairs that go out together, whatever the schedule, is what holds of all pairs with
-- one key: everything can be observed before anything goes out.
theorem grouped_exact {alike : HappeningEnvelope η → HappeningEnvelope η → Prop} :
    (∀ (calls : List (Call η)) (order : KeyOrder),observedIn calls = stream →
      ∀ group ∈ (run (Ledger.step labels) (.new config) (calls ++ [Call.drain order])).standsFor,∀ a ∈ group,∀ b ∈ group,alike a b) ↔
    ∀ a ∈ stream,∀ b ∈ stream,∀ key,buildKey (labels a.happening) config.labels = some key →
      buildKey (labels b.happening) config.labels = some key → alike a b := by
  constructor
  · intro always a memberA b memberB key keyA keyB
    have waitsA := allAtOnce_waits (new_kept labels config) stream memberA keyA
    have waitsB := allAtOnce_waits (new_kept labels config) stream memberB keyB
    have kept := run_kept labels config (allAtOnce stream)
    have listed : key ∈ (run (Ledger.step labels) (.new config) (allAtOnce stream)).coalescer.buckets.keys := by
      rw [mem_keys]
      cases there : get (run (Ledger.step labels) (.new config) (allAtOnce stream)).coalescer.buckets key with
      | none =>
        have waits := mem_absorbed.mpr waitsA
        rw [kept.closed key there] at waits
        cases waits
      | some bucket => exact ⟨bucket,rfl⟩
    have group : absorbed (run (Ledger.step labels) (.new config) (allAtOnce stream)).waiting key ∈
        (run (Ledger.step labels) (.new config) (allAtOnce stream ++ [Call.drain .listed])).standsFor := by
      rw [run_snoc]
      exact List.mem_append_right _ (List.mem_map_of_mem listed)
    exact always (allAtOnce stream) .listed (allAtOnce_observed stream) _ group a (mem_absorbed.mpr waitsA) b (mem_absorbed.mpr waitsB)
  · intro pairs calls order given group member a insideA b insideB
    have kept := run_kept labels config (calls ++ [Call.drain order])
    obtain ⟨key,keyed⟩ := kept.together group member
    have observed : (run (Ledger.step labels) (.new config) (calls ++ [Call.drain order])).observed = stream := by
      rw [run_snoc,← given]
      exact run_observed calls (.new config)
    have seen : ∀ env ∈ group,env ∈ stream := by
      intro env inside
      have placed : env ∈ (run (Ledger.step labels) (.new config) (calls ++ [Call.drain order])).standsFor.flatten :=
        List.mem_flatten.mpr ⟨group,member,inside⟩
      rw [← observed]
      exact kept.accounted.mem_iff.mp (List.mem_append_left _ (List.mem_append_right _ placed))
    exact pairs a (seen a insideA) b (seen b insideB) key (keyed a insideA) (keyed b insideB)

theorem bucket_exactness (labels : η → String → Option String) (config : CoalesceConfig) (stream : List (HappeningEnvelope η)) :
    (∀ (calls : List (Call η)) (order : KeyOrder),observedIn calls = stream →
      Exact labels config stream (run (Ledger.step labels) (.new config) (calls ++ [Call.drain order]))) ↔
    Unambiguous labels config.labels stream := by
  constructor
  · intro always
    refine grouped_exact.mp fun calls order given => ?_
    exact (drained_exact calls order given).mp (always calls order given)
  · intro unambiguous calls order given
    exact (drained_exact calls order given).mpr (grouped_exact.mpr unambiguous calls order given)

def perCustody : CoalesceConfig := ⟨["custody_type","handle_id"],100,.latest⟩

-- A handle id with the text of a label in it, and the same text in the custody type.
def twoCustodies : List (HappeningEnvelope CustodyTaken) :=
  [⟨1,⟨"org.example.mpd","2|handle_id=3","audio.playback","1"⟩⟩,⟨2,⟨"org.example.mpd","3","audio.playback","1|handle_id=2"⟩⟩]

theorem custodies_share_bucket : ¬ ∀ (calls : List (Call CustodyTaken)) (order : KeyOrder),observedIn calls = twoCustodies →
    Exact CustodyTaken.labels perCustody twoCustodies (run (Ledger.step CustodyTaken.labels) (.new perCustody) (calls ++ [Call.drain order])) := by
  intro always
  have exact_ := always (allAtOnce twoCustodies) .listed (allAtOnce_observed twoCustodies)
  have together : (run (Ledger.step CustodyTaken.labels) (.new perCustody) (allAtOnce twoCustodies ++ [Call.drain .listed])).standsFor =
      [twoCustodies] := by
    decide
  have agreeing := exact_.agreeing twoCustodies (by rw [together]; exact List.mem_singleton_self _)
  have handles := agreeing ⟨1,⟨"org.example.mpd","2|handle_id=3","audio.playback","1"⟩⟩ (by decide)
    ⟨2,⟨"org.example.mpd","3","audio.playback","1|handle_id=2"⟩⟩ (by decide) "handle_id" (by decide)
  revert handles
  decide

end EvoCore.CoalescedBuckets
