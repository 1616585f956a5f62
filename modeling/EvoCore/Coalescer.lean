import EvoCore.Runs
import EvoCore.Tables

namespace EvoCore.Coalescer
open Tables Runs

-- The per-subscriber coalescer of crates/evo/src/coalescer.rs over any type of happenings with
-- their labels. Instants are numbers of milliseconds.
inductive CoalesceSelection where
  | latest
  | first
deriving DecidableEq,Repr

structure CoalesceConfig where
  labels : List String
  windowMs : Nat
  selection : CoalesceSelection
deriving DecidableEq,Repr

structure HappeningEnvelope (η : Type) where
  seq : Nat
  happening : η
deriving DecidableEq,Repr

-- The absorbed seqs are a history of the bucket that nothing below reads.
structure Bucket (η : Type) where
  expiresAt : Nat
  seqMax : Nat
  candidate : η
  absorbed : List Nat
deriving DecidableEq,Repr

structure Coalescer (η : Type) where
  config : CoalesceConfig
  buckets : Table String (Bucket η)

def Coalescer.new (config : CoalesceConfig) : Coalescer η := ⟨config,∅⟩

def buildKey (labels : String → Option String) (requested : List String) : Option String :=
  ((requested.insertionSort (· ≤ ·)).mapM fun label =>
    (labels label).map fun value => label ++ "=" ++ value).map fun parts => "|".intercalate parts

section
variable {η : Type} (labels : η → String → Option String)

def opened (c : Coalescer η) (key : String) (now : Nat) (env : HappeningEnvelope η) : Coalescer η :=
  {c with buckets := c.buckets.insert key ⟨now+c.config.windowMs,env.seq,env.happening,[env.seq]⟩}

def joined (c : Coalescer η) (key : String) (bucket : Bucket η) (env : HappeningEnvelope η) : Coalescer η :=
  {c with buckets := c.buckets.insert key {bucket with
    seqMax := if bucket.seqMax < env.seq then env.seq else bucket.seqMax
    candidate := if c.config.selection = .latest then env.happening else bucket.candidate
    absorbed := bucket.absorbed ++ [env.seq]}}

def observe (c : Coalescer η) (now : Nat) (env : HappeningEnvelope η) : Option (HappeningEnvelope η) × Coalescer η :=
  match buildKey (labels env.happening) c.config.labels with
  | none => (some env,c)
  | some key =>
    match get c.buckets key with
    | none => (none,opened c key now env)
    | some bucket => (none,joined c key bucket env)

structure Delivery (η : Type) where
  envelope : HappeningEnvelope η
  absorbed : List Nat
deriving DecidableEq,Repr

def Bucket.delivery (b : Bucket η) : Delivery η := ⟨⟨b.seqMax,b.candidate⟩,b.absorbed⟩

def emit : Table String (Bucket η) → List String → List (Delivery η) × Table String (Bucket η)
  | buckets,[] => ([],buckets)
  | buckets,key::rest =>
    match get buckets key with
    | none => emit buckets rest
    | some bucket => (bucket.delivery::(emit (buckets.erase key) rest).1,(emit (buckets.erase key) rest).2)

-- The order in which the hash map gives out its keys.
structure KeyOrder where
  order : List String → List String
  complete : ∀ keys,(order keys).Perm keys

def KeyOrder.listed : KeyOrder := ⟨id,fun _ => .refl _⟩

def expired (buckets : Table String (Bucket η)) (now : Nat) (key : String) : Bool :=
  (get buckets key).any fun bucket => bucket.expiresAt ≤ now

def flushKeys (c : Coalescer η) (order : KeyOrder) (now : Nat) : List String :=
  (order.order c.buckets.keys).filter (expired c.buckets now)

def flushExpired (c : Coalescer η) (order : KeyOrder) (now : Nat) : List (Delivery η) × Coalescer η :=
  ((emit c.buckets (flushKeys c order now)).1,{c with buckets := (emit c.buckets (flushKeys c order now)).2})

def drain (c : Coalescer η) (order : KeyOrder) : List (Delivery η) × Coalescer η :=
  ((emit c.buckets (order.order c.buckets.keys)).1,{c with buckets := (emit c.buckets (order.order c.buckets.keys)).2})

structure Session (η : Type) where
  coalescer : Coalescer η
  observed : List Nat
  delivered : List (Delivery η)

def Session.new (config : CoalesceConfig) : Session η := ⟨.new config,[],[]⟩

inductive Call (η : Type) where
  | observe (now : Nat) (env : HappeningEnvelope η)
  | flushExpired (order : KeyOrder) (now : Nat)
  | drain (order : KeyOrder)

def step (s : Session η) : Call η → Session η
  | .observe now env =>
    let (passed,after) := observe labels s.coalescer now env
    ⟨after,s.observed ++ [env.seq],s.delivered ++ passed.toList.map fun env => ⟨env,[env.seq]⟩⟩
  | .flushExpired order now =>
    let (out,after) := flushExpired s.coalescer order now
    {s with coalescer := after,delivered := s.delivered ++ out}
  | .drain order =>
    let (out,after) := drain s.coalescer order
    {s with coalescer := after,delivered := s.delivered ++ out}

end

variable {η : Type} {labels : η → String → Option String} {observed : List Nat} {delivered : List (Delivery η)}
  {buckets : Table String (Bucket η)} {d : Delivery η}

def Delivery.seq (d : Delivery η) : Nat := d.envelope.seq

-- Non-decreasing, and after every emitted envelope all that was observed up to its seq is out.
structure Safe (observed : List Nat) (delivered : List (Delivery η)) : Prop where
  ordered : delivered.Pairwise fun a b => a.seq ≤ b.seq
  covered : ∀ before d after,delivered = before ++ d::after → ∀ n,n ∈ observed → n ≤ d.seq →
    ∃ e,e ∈ before ++ [d] ∧ n ∈ e.absorbed

theorem Safe.initial (safe : Safe observed (delivered ++ more)) : Safe observed delivered := by
  refine ⟨(List.pairwise_append.mp safe.ordered).1,?_⟩
  rintro before d after rfl n seen below
  exact safe.covered before d (after ++ more) (by simp) n seen below

theorem safe_snoc : Safe observed (delivered ++ [d]) ↔ Safe observed delivered ∧ (∀ e,e ∈ delivered → e.seq ≤ d.seq) ∧
    ∀ n,n ∈ observed → n ≤ d.seq → ∃ e,e ∈ delivered ++ [d] ∧ n ∈ e.absorbed := by
  constructor
  · intro safe
    refine ⟨safe.initial,?_,safe.covered delivered d [] rfl⟩
    intro e member
    exact (List.pairwise_append.mp safe.ordered).2.2 e member d (by simp)
  · rintro ⟨safe,above,covered⟩
    refine ⟨?_,?_⟩
    · rw [List.pairwise_append]
      exact ⟨safe.ordered,by simp,fun e member last same => by
        cases List.mem_singleton.mp same
        exact above e member⟩
    · intro before e after split
      rcases List.append_eq_append_iff.mp split with ⟨middle,rfl,tail⟩ | ⟨middle,rfl,tail⟩
      · cases middle with
        | nil =>
          simp only [List.nil_append,List.cons.injEq] at tail
          obtain ⟨rfl,-⟩ := tail
          simpa using covered
        | cons first rest => simp at tail
      · cases middle with
        | nil =>
          simp only [List.nil_append,List.cons.injEq] at tail
          obtain ⟨rfl,-⟩ := tail
          simpa using covered
        | cons first rest =>
          simp only [List.cons_append,List.cons.injEq] at tail
          obtain ⟨rfl,-⟩ := tail
          exact safe.covered before e rest rfl

theorem Safe.observe (safe : Safe observed delivered) (above : ∀ e,e ∈ delivered → e.seq < n) :
    Safe (observed ++ [n]) delivered := by
  refine ⟨safe.ordered,?_⟩
  rintro before e after rfl m seen below
  rcases List.mem_append.mp seen with old | new
  · exact safe.covered before e after rfl m old below
  · have under := above e (by simp)
    cases List.mem_singleton.mp new
    omega

-- Where every observed seq is: out, or in one bucket whose seq_max is its largest.
structure Tracked (observed : List Nat) (delivered : List (Delivery η)) (buckets : Table String (Bucket η)) : Prop where
  own : ∀ d,d ∈ delivered → d.seq ∈ d.absorbed
  known : ∀ d n,d ∈ delivered → n ∈ d.absorbed → n ∈ observed
  top : ∀ key b,get buckets key = some b → b.seqMax ∈ b.absorbed ∧ ∀ n,n ∈ b.absorbed → n ≤ b.seqMax
  pending : ∀ key b n,get buckets key = some b → n ∈ b.absorbed → n ∈ observed ∧ ∀ d,d ∈ delivered → n ∉ d.absorbed
  placed : ∀ n,n ∈ observed → (∃ d,d ∈ delivered ∧ n ∈ d.absorbed) ∨ ∃ key b,get buckets key = some b ∧ n ∈ b.absorbed
  apart : ∀ k b k' b' n,get buckets k = some b → get buckets k' = some b' → n ∈ b.absorbed → n ∈ b'.absorbed → k = k'

theorem new_tracked : Tracked (η := η) [] [] ∅ := by
  refine ⟨?_,?_,?_,?_,?_,?_⟩ <;> simp

theorem pending_above (safe : Safe observed delivered) (tracked : Tracked observed delivered buckets)
    (there : get buckets key = some b) (inside : n ∈ b.absorbed) : ∀ e,e ∈ delivered → e.seq < n := by
  intro e member
  obtain ⟨seen,kept⟩ := tracked.pending key b n there inside
  by_contra late
  obtain ⟨before,after,split⟩ := List.append_of_mem member
  obtain ⟨out,among,absorbed⟩ := safe.covered before e after split n seen (by omega)
  refine kept out ?_ absorbed
  rw [split]
  rcases List.mem_append.mp among with first | last
  · exact List.mem_append.mpr (.inl first)
  · cases List.mem_singleton.mp last
    simp

theorem deliver_tracked (tracked : Tracked observed delivered buckets) (there : get buckets key = some b) :
    Tracked observed (delivered ++ [b.delivery]) (buckets.erase key) := by
  have left : ∀ k other,get (buckets.erase key) k = some other → k ≠ key ∧ get buckets k = some other := by
    intro k other here
    simp only [get_erase] at here
    split at here
    · cases here
    · rename_i apart
      exact ⟨apart,here⟩
  refine ⟨?_,?_,?_,?_,?_,?_⟩
  · intro d member
    rcases List.mem_append.mp member with old | new
    · exact tracked.own d old
    · cases List.mem_singleton.mp new
      exact (tracked.top key b there).1
  · intro d n member inside
    rcases List.mem_append.mp member with old | new
    · exact tracked.known d n old inside
    · cases List.mem_singleton.mp new
      exact (tracked.pending key b n there inside).1
  · intro k other here
    exact tracked.top k other (left k other here).2
  · intro k other n here inside
    obtain ⟨apart,old⟩ := left k other here
    obtain ⟨seen,kept⟩ := tracked.pending k other n old inside
    refine ⟨seen,fun d member => ?_⟩
    rcases List.mem_append.mp member with before | new
    · exact kept d before
    · cases List.mem_singleton.mp new
      exact fun taken => apart (tracked.apart k other key b n old there inside taken)
  · intro n seen
    rcases tracked.placed n seen with ⟨d,member,inside⟩ | ⟨k,other,here,inside⟩
    · exact .inl ⟨d,List.mem_append.mpr (.inl member),inside⟩
    · by_cases same : k = key
      · subst same
        cases Option.some.inj (there.symm.trans here)
        exact .inl ⟨b.delivery,by simp,inside⟩
      · exact .inr ⟨k,other,by simp [same,here],inside⟩
  · intro k other k' other' n here here' inside inside'
    exact tracked.apart k other k' other' n (left k other here).2 (left k' other' here').2 inside inside'

theorem deliver_safe (safe : Safe observed delivered) (tracked : Tracked observed delivered buckets)
    (there : get buckets key = some b) : Safe observed (delivered ++ [b.delivery]) ↔
      ∀ k other n,k ≠ key → get buckets k = some other → n ∈ other.absorbed → b.seqMax < n := by
  constructor
  · intro after k other n apart here inside
    obtain ⟨seen,kept⟩ := tracked.pending k other n here inside
    by_contra late
    obtain ⟨e,among,absorbed⟩ := (safe_snoc.mp after).2.2 n seen (Nat.le_of_not_lt late)
    rcases List.mem_append.mp among with old | new
    · exact kept e old absorbed
    · cases List.mem_singleton.mp new
      exact apart (tracked.apart k other key b n here there inside absorbed)
  · intro clear
    refine safe_snoc.mpr ⟨safe,?_,?_⟩
    · intro e member
      exact Nat.le_of_lt (pending_above safe tracked there (tracked.top key b there).1 e member)
    · intro n seen below
      rcases tracked.placed n seen with ⟨d,member,inside⟩ | ⟨k,other,here,inside⟩
      · exact ⟨d,List.mem_append.mpr (.inl member),inside⟩
      · by_cases same : k = key
        · subst same
          cases Option.some.inj (there.symm.trans here)
          exact ⟨b.delivery,by simp,inside⟩
        · have above := clear k other n same here inside
          exact absurd below (Nat.not_le_of_lt above)

-- Each bucket in turn is below everything that is still pending when it goes out.
def Ordered : Table String (Bucket η) → List String → Prop
  | _,[] => True
  | buckets,key::rest =>
    match get buckets key with
    | none => Ordered buckets rest
    | some b => (∀ k other n,k ≠ key → get buckets k = some other → n ∈ other.absorbed → b.seqMax < n) ∧
        Ordered (buckets.erase key) rest

theorem emit_tracked (keys : List String) (tracked : Tracked observed delivered buckets) :
    Tracked observed (delivered ++ (emit buckets keys).1) (emit buckets keys).2 := by
  induction keys generalizing delivered buckets with
  | nil => simpa [emit] using tracked
  | cons key rest ih =>
    cases there : get buckets key with
    | none => simpa only [emit,there] using ih tracked
    | some b =>
      have next := ih (deliver_tracked tracked there)
      simpa only [emit,there,List.append_assoc,List.singleton_append] using next

theorem emit_safe (keys : List String) (safe : Safe observed delivered) (tracked : Tracked observed delivered buckets) :
    Safe observed (delivered ++ (emit buckets keys).1) ↔ Ordered buckets keys := by
  induction keys generalizing delivered buckets with
  | nil => simpa [emit,Ordered] using safe
  | cons key rest ih =>
    cases there : get buckets key with
    | none => simpa only [emit,Ordered,there] using ih safe tracked
    | some b =>
      have shape : delivered ++ b.delivery::(emit (buckets.erase key) rest).1 =
          delivered ++ [b.delivery] ++ (emit (buckets.erase key) rest).1 := by simp
      simp only [emit,Ordered,there,shape]
      rw [← deliver_safe safe tracked there]
      constructor
      · intro after
        exact ⟨after.initial,(ih after.initial (deliver_tracked tracked there)).mp after⟩
      · rintro ⟨first,others⟩
        exact (ih first (deliver_tracked tracked there)).mpr others

theorem Tracked.below (tracked : Tracked observed delivered buckets) (later : ∀ m,m ∈ observed → m < n) :
    ∀ e,e ∈ delivered → e.seq < n := fun e member => later _ (tracked.known e _ member (tracked.own e member))

theorem pass_tracked (env : HappeningEnvelope η) (tracked : Tracked observed delivered buckets)
    (later : ∀ m,m ∈ observed → m < env.seq) :
    Tracked (observed ++ [env.seq]) (delivered ++ [⟨env,[env.seq]⟩]) buckets := by
  refine ⟨?_,?_,tracked.top,?_,?_,tracked.apart⟩
  · intro d member
    rcases List.mem_append.mp member with old | new
    · exact tracked.own d old
    · cases List.mem_singleton.mp new
      simp [Delivery.seq]
  · intro d n member inside
    rcases List.mem_append.mp member with old | new
    · exact List.mem_append.mpr (.inl (tracked.known d n old inside))
    · cases List.mem_singleton.mp new
      exact List.mem_append.mpr (.inr inside)
  · intro key b n there inside
    obtain ⟨seen,kept⟩ := tracked.pending key b n there inside
    refine ⟨List.mem_append.mpr (.inl seen),fun d member => ?_⟩
    rcases List.mem_append.mp member with old | new
    · exact kept d old
    · cases List.mem_singleton.mp new
      have under := later n seen
      simp only [List.mem_singleton]
      omega
  · intro n seen
    rcases List.mem_append.mp seen with old | new
    · rcases tracked.placed n old with ⟨d,member,inside⟩ | waiting
      · exact .inl ⟨d,List.mem_append.mpr (.inl member),inside⟩
      · exact .inr waiting
    · exact .inl ⟨⟨env,[env.seq]⟩,by simp,new⟩

theorem pass_safe (env : HappeningEnvelope η) (safe : Safe observed delivered) (tracked : Tracked observed delivered buckets)
    (later : ∀ m,m ∈ observed → m < env.seq) :
    Safe (observed ++ [env.seq]) (delivered ++ [⟨env,[env.seq]⟩]) ↔ ∀ key,get buckets key = none := by
  have below := tracked.below later
  rw [safe_snoc]
  constructor
  · rintro ⟨-,-,covered⟩ key
    cases there : get buckets key with
    | none => rfl
    | some b =>
      have top := (tracked.top key b there).1
      obtain ⟨seen,kept⟩ := (pass_tracked env tracked later).pending key b b.seqMax there top
      have under := later b.seqMax (tracked.pending key b b.seqMax there top).1
      obtain ⟨e,among,absorbed⟩ := covered b.seqMax seen (Nat.le_of_lt under)
      exact absurd absorbed (kept e among)
  · intro empty
    refine ⟨safe.observe below,fun e member => Nat.le_of_lt (below e member),fun n seen _ => ?_⟩
    rcases (pass_tracked env tracked later).placed n seen with out | ⟨key,b,there,-⟩
    · exact out
    · simp [empty key] at there

def absorbedAt (buckets : Table String (Bucket η)) (key : String) : List Nat := ((get buckets key).map Bucket.absorbed).getD []

theorem mem_absorbedAt : n ∈ absorbedAt buckets key ↔ ∃ b,get buckets key = some b ∧ n ∈ b.absorbed := by
  unfold absorbedAt
  cases there : get buckets key <;> simp

theorem absorb_tracked (new : Bucket η) (tracked : Tracked observed delivered buckets) (later : ∀ m,m ∈ observed → m < n)
    (top : new.seqMax = n) (absorbed : new.absorbed = absorbedAt buckets key ++ [n]) :
    Tracked (observed ++ [n]) delivered (buckets.insert key new) := by
  have unseen : n ∉ observed := fun seen => Nat.lt_irrefl n (later n seen)
  have members : ∀ k b m,get (buckets.insert key new) k = some b → m ∈ b.absorbed →
      (k = key ∧ m = n) ∨ ∃ old,get buckets k = some old ∧ m ∈ old.absorbed := by
    intro k b m there inside
    simp only [get_insert] at there
    split at there
    · rename_i same
      cases there
      rw [absorbed] at inside
      rcases List.mem_append.mp inside with was | is
      · exact .inr (same ▸ mem_absorbedAt.mp was)
      · exact .inl ⟨same,List.mem_singleton.mp is⟩
    · exact .inr ⟨b,there,inside⟩
  refine ⟨tracked.own,?_,?_,?_,?_,?_⟩
  · exact fun d m member inside => List.mem_append.mpr (.inl (tracked.known d m member inside))
  · intro k b there
    simp only [get_insert] at there
    split at there
    · cases there
      refine ⟨by simp [absorbed,top],fun m inside => ?_⟩
      rw [absorbed] at inside
      rcases List.mem_append.mp inside with was | is
      · obtain ⟨old,here,among⟩ := mem_absorbedAt.mp was
        have under := later m (tracked.pending key old m here among).1
        omega
      · cases List.mem_singleton.mp is
        omega
    · exact tracked.top k b there
  · intro k b m there inside
    rcases members k b m there inside with ⟨-,rfl⟩ | ⟨old,here,among⟩
    · exact ⟨by simp,fun d member taken => unseen (tracked.known d m member taken)⟩
    · obtain ⟨seen,kept⟩ := tracked.pending k old m here among
      exact ⟨List.mem_append.mpr (.inl seen),kept⟩
  · intro m seen
    have newest : get (buckets.insert key new) key = some new := by simp
    rcases List.mem_append.mp seen with was | is
    · rcases tracked.placed m was with out | ⟨k,b,there,inside⟩
      · exact .inl out
      · by_cases same : k = key
        · subst same
          exact .inr ⟨k,new,newest,by rw [absorbed]; exact List.mem_append.mpr (.inl (mem_absorbedAt.mpr ⟨b,there,inside⟩))⟩
        · exact .inr ⟨k,b,by simp [same,there],inside⟩
    · exact .inr ⟨key,new,newest,by rw [absorbed]; exact List.mem_append.mpr (.inr is)⟩
  · intro k b k' b' m there there' inside inside'
    rcases members k b m there inside with ⟨rfl,rfl⟩ | ⟨old,here,among⟩
    · rcases members k' b' m there' inside' with ⟨rfl,-⟩ | ⟨old',here',among'⟩
      · rfl
      · exact absurd (tracked.pending k' old' m here' among').1 unseen
    · rcases members k' b' m there' inside' with ⟨-,rfl⟩ | ⟨old',here',among'⟩
      · exact absurd (tracked.pending k old m here among).1 unseen
      · exact tracked.apart k old k' old' m here here' among among'

def Sound (s : Session η) : Prop := Safe s.observed s.delivered ∧ Tracked s.observed s.delivered s.coalescer.buckets

def Increasing (s : Session η) : Call η → Prop
  | .observe _ env => ∀ m,m ∈ s.observed → m < env.seq
  | _ => True

def InOrder (labels : η → String → Option String) (s : Session η) : Call η → Prop
  | .observe _ env => buildKey (labels env.happening) s.coalescer.config.labels = none →
      ∀ key,get s.coalescer.buckets key = none
  | .flushExpired order now => Ordered s.coalescer.buckets (flushKeys s.coalescer order now)
  | .drain order => Ordered s.coalescer.buckets (order.order s.coalescer.buckets.keys)

theorem step_tracked (tracked : Tracked s.observed s.delivered s.coalescer.buckets) (call : Call η)
    (later : Increasing s call) :
    Tracked (step labels s call).observed (step labels s call).delivered (step labels s call).coalescer.buckets := by
  cases call with
  | flushExpired order now => exact emit_tracked _ tracked
  | drain order => exact emit_tracked _ tracked
  | observe now env =>
    simp only [step,observe]
    cases keyed : buildKey (labels env.happening) s.coalescer.config.labels with
    | none => exact pass_tracked env tracked later
    | some key =>
      dsimp only
      cases there : get s.coalescer.buckets key with
      | none =>
        simp only [Option.toList_none,List.map_nil,List.append_nil]
        exact absorb_tracked _ tracked later rfl (by simp [absorbedAt,there])
      | some b =>
        have under := later _ (tracked.pending key b _ there (tracked.top key b there).1).1
        simp only [Option.toList_none,List.map_nil,List.append_nil]
        exact absorb_tracked _ tracked later (if_pos under) (by simp [absorbedAt,there])

theorem step_safe (sound : Sound s) (call : Call η) (later : Increasing s call) :
    Safe (step labels s call).observed (step labels s call).delivered ↔ InOrder labels s call := by
  cases call with
  | flushExpired order now => exact emit_safe _ sound.1 sound.2
  | drain order => exact emit_safe _ sound.1 sound.2
  | observe now env =>
    have quiet := sound.1.observe (sound.2.below later)
    simp only [step,observe,InOrder]
    cases keyed : buildKey (labels env.happening) s.coalescer.config.labels with
    | none =>
      have passed := pass_safe env sound.1 sound.2 later
      exact ⟨fun after _ => passed.mp after,fun empty => passed.mpr (empty rfl)⟩
    | some key =>
      dsimp only
      cases there : get s.coalescer.buckets key with
      | none => simpa using quiet
      | some b => simpa using quiet

theorem coalesced_cursor_safe_exactly (labels : η → String → Option String) (config : CoalesceConfig) (calls : List (Call η))
    (increasing : Guarded (step labels) Increasing (.new config) calls) :
    Throughout (step labels) (fun s => Safe s.observed s.delivered) (.new config) calls ↔
      Guarded (step labels) (InOrder labels) (.new config) calls := by
  apply throughout_within Increasing Sound
  · exact fun s sound => sound.1
  · exact fun s call sound later met => ⟨(step_safe sound call later).mpr met,step_tracked sound.2 call later⟩
  · exact fun s call sound later after => (step_safe sound call later).mp after
  · exact ⟨⟨.nil,by simp [Session.new]⟩,new_tracked⟩
  · exact increasing

-- Happenings with at most one label, and a subscriber that coalesces on it.
def sensor (reading : Option String) (label : String) : Option String := if label = "sensor" then reading else none
def perSensor : CoalesceConfig := ⟨["sensor"],100,.latest⟩

def oneSensor : List (Call (Option String)) :=
  [.observe 0 ⟨1,some "a"⟩,.observe 10 ⟨2,some "a"⟩,.flushExpired .listed 100,.observe 110 ⟨3,none⟩]

theorem coalesced_cursor_safe_one_sensor :
    Throughout (step sensor) (fun s => Safe s.observed s.delivered) (.new perSensor) oneSensor := by
  have increasing : Guarded (step sensor) Increasing (.new perSensor) oneSensor := by
    refine ⟨?_,?_,trivial,?_,trivial⟩
    · simp [Increasing,Session.new]
    · change ∀ m,m ∈ [1] → m < 2
      decide
    · change ∀ m,m ∈ [1,2] → m < 3
      decide
  apply (coalesced_cursor_safe_exactly sensor perSensor oneSensor increasing).mpr
  refine ⟨?_,?_,?_,?_,trivial⟩
  · exact fun keyed => absurd keyed (by decide)
  · exact fun keyed => absurd keyed (by decide)
  · have shape : (run (step sensor) (.new perSensor) (oneSensor.take 2)).coalescer.buckets =
        (∅ : Table String (Bucket (Option String))).insert "sensor=a" ⟨100,2,some "a",[1,2]⟩ := rfl
    change Ordered (run (step sensor) (.new perSensor) (oneSensor.take 2)).coalescer.buckets ["sensor=a"]
    rw [shape]
    simp only [Ordered,get_insert,if_true,and_true]
    intro k other n apart there
    simp [apart] at there
  · intro _ key
    have empty : (run (step sensor) (.new perSensor) (oneSensor.take 3)).coalescer.buckets = ∅ := rfl
    change get (run (step sensor) (.new perSensor) (oneSensor.take 3)).coalescer.buckets key = none
    rw [empty,get_empty]

-- Two sensors in turn: the bucket that goes out first is ahead of the other. And a happening
-- without the label that passes a bucket still open.
theorem open_bucket_overtaken :
    ¬Safe (run (step sensor) (.new perSensor) [.observe 0 ⟨1,some "a"⟩,.observe 0 ⟨2,some "b"⟩,.observe 0 ⟨3,some "a"⟩,
        .flushExpired .listed 100]).observed
      (run (step sensor) (.new perSensor) [.observe 0 ⟨1,some "a"⟩,.observe 0 ⟨2,some "b"⟩,.observe 0 ⟨3,some "a"⟩,
        .flushExpired .listed 100]).delivered ∧
      ¬Safe (run (step sensor) (.new perSensor) [.observe 0 ⟨1,some "a"⟩,.observe 0 ⟨2,none⟩]).observed
        (run (step sensor) (.new perSensor) [.observe 0 ⟨1,some "a"⟩,.observe 0 ⟨2,none⟩]).delivered := by
  constructor
  · intro safe
    have ordered := safe.ordered
    revert ordered
    decide
  · intro safe
    have covered := safe.covered [] ⟨⟨2,none⟩,[2]⟩ [] (by decide) 1 (by decide) (by decide)
    revert covered
    decide

end EvoCore.Coalescer
