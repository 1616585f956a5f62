import EvoCore.Runs
import EvoCore.Tables

namespace EvoCore.AssetCache
open Runs Tables

structure File where
  content : List UInt8
  mtime : Int
  deriving DecidableEq,Repr

-- The names of the cache directory: `<hash>` and `<hash>.tmp`, each naming one of the
-- files by its place. A writer holds the file, whatever its name is by now.
structure Disk where
  finals : Table String Nat
  temps : Table String Nat
  files : List File

def Disk.content (disk : Disk) (n : Nat) : Option (List UInt8) := disk.files[n]?.map (·.content)

def Disk.setContent (disk : Disk) (n : Nat) (content : List UInt8) (now : Int) : Disk :=
  { disk with files := disk.files.modify n fun _ => ⟨content,now⟩ }

def Disk.touchMtime (disk : Disk) (n : Nat) (now : Int) : Disk :=
  { disk with files := disk.files.modify n fun file => { file with mtime := now } }

-- `File::create`: the file under the temporary name is cut to nothing, or a new one is made.
def Disk.createTemp (disk : Disk) (hash : String) (now : Int) : Disk × Nat :=
  match get disk.temps hash with
  | some n => (disk.setContent n [] now,n)
  | none => ({ disk with temps := disk.temps.insert hash disk.files.length,files := disk.files++[⟨[],now⟩] },disk.files.length)

-- A write at an offset; what a truncation took away below it reads as zeros.
def overlay (content : List UInt8) (offset : Nat) (piece : List UInt8) : List UInt8 :=
  (content++List.replicate (offset-content.length) 0).take offset++piece++content.drop (offset+piece.length)

def Disk.writeAt (disk : Disk) (n offset : Nat) (piece : List UInt8) (now : Int) : Disk :=
  match disk.content n with
  | some content => disk.setContent n (overlay content offset piece) now
  | none => disk

def Disk.renameTemp (disk : Disk) (hash : String) : Option Disk :=
  (get disk.temps hash).map fun n => { disk with finals := disk.finals.insert hash n,temps := disk.temps.erase hash }

inductive Name where
  | final (hash : String)
  | temp (hash : String)
  deriving DecidableEq,Repr

def Disk.remove (disk : Disk) : Name → Disk
  | .final hash => { disk with finals := disk.finals.erase hash }
  | .temp hash => { disk with temps := disk.temps.erase hash }

structure Listed where
  name : Name
  size : Nat
  mtime : Int

def Disk.listed (disk : Disk) : List Listed :=
  (disk.finals.entries.map fun e => (Name.final e.1,e.2)).append (disk.temps.entries.map fun e => (Name.temp e.1,e.2))
    |>.filterMap fun entry => disk.files[entry.2]?.map fun file => ⟨entry.1,file.content.length,file.mtime⟩

-- Oldest first, until what is left is under the bound; a file that cannot be removed stays.
def dropOldest (bound : Nat) (removable : Name → Bool) (disk : Disk) (total : Nat) : List Listed → Disk
  | [] => disk
  | victim::rest =>
    if total ≤ bound then disk
    else if removable victim.name then dropOldest bound removable (disk.remove victim.name) (total-victim.size) rest
    else dropOldest bound removable disk total rest

def evictToBound (bound : Nat) (removable : Name → Bool) (disk : Disk) : Disk :=
  dropOldest bound removable disk (disk.listed.map (·.size)).sum (disk.listed.insertionSort fun a b => a.mtime ≤ b.mtime)

def validateHash (hash : String) : Bool :=
  hash.utf8ByteSize = 64 && hash.toList.all fun c => c.isDigit || ('a' ≤ c && c ≤ 'f')

inductive ChannelState where
  | opened
  | published (outcome : Except String (List UInt8))
  | closed

structure Channel where
  hash : String
  state : ChannelState

inductive Op where
  | get
  | getOrFetch
  | put
  | delete
  deriving DecidableEq,Repr

-- Where a call stands; `returned` has the bytes of an `Ok(bytes)`.
inductive Phase where
  | reading
  | missed
  | waiting (channel : Nat)
  | fetching
  | creatingDir (bytes : List UInt8)
  | opening (bytes : List UInt8)
  | writing (file : Nat) (written rest : List UInt8)
  | moving (bytes : List UInt8)
  | deleting
  | returned (answer : Option (List UInt8))
  | stopped
  deriving DecidableEq,Repr

-- A cancelled call still has the file operation under way that it had started.
structure Task where
  hash : String
  op : Op
  phase : Phase
  cancelled : Bool
  deriving DecidableEq,Repr

structure Cache where
  disk : Disk
  inflight : Table String Nat
  channels : List Channel
  tasks : List Task

structure Env where
  now : Int
  io : Bool
  chunk : Nat
  fetched : Except String (List UInt8)
  timedOut : Bool
  swept : Bool
  removable : Name → Bool

-- What an `InflightGuard` does when it is dropped.
def dropGuard (cache : Cache) (hash : String) (outcome : ChannelState) : Cache :=
  match get cache.inflight hash with
  | some ch =>
    { cache with
      inflight := cache.inflight.erase hash
      channels := cache.channels.modify ch fun channel => { channel with state := outcome } }
  | none => cache

section
variable (hashBytes : List UInt8 → String) (bound : Nat)

def beginPut (hash : String) (bytes : List UInt8) : Phase :=
  if validateHash hash && hashBytes bytes = hash then .creatingDir bytes else .returned none

def putAnswer (op : Op) (bytes : List UInt8) : Option (List UInt8) := if op = .getOrFetch then some bytes else none

def advanceTask (cache : Cache) (task : Task) (env : Env) : Cache × Phase :=
  match task.phase with
  | .reading =>
    if !env.io then (cache,.returned none)
    else
      match get cache.disk.finals task.hash with
      | some n => ({ cache with disk := cache.disk.touchMtime n env.now },.returned (cache.disk.content n))
      | none => (cache,if task.op = .getOrFetch then .missed else .returned none)
  | .missed =>
    match get cache.inflight task.hash with
    | some ch => (cache,.waiting ch)
    | none =>
      ({ cache with
          inflight := cache.inflight.insert task.hash cache.channels.length
          channels := cache.channels++[⟨task.hash,.opened⟩] },.fetching)
  | .waiting ch =>
    match cache.channels[ch]? with
    | some ⟨_,.published (.ok bytes)⟩ => (cache,.returned (some bytes))
    | some ⟨_,.published (.error _)⟩ => (cache,.returned none)
    | some ⟨_,.opened⟩ => (cache,if env.timedOut then .returned none else .waiting ch)
    | some ⟨_,.closed⟩ | none => (cache,.reading)
  | .fetching =>
    (dropGuard cache task.hash (.published env.fetched),
      match env.fetched with
      | .ok bytes => beginPut hashBytes task.hash bytes
      | .error _ => .returned none)
  | .creatingDir bytes => (cache,if task.cancelled then .stopped else if env.io then .opening bytes else .returned none)
  | .opening bytes =>
    if env.io then
      let made := cache.disk.createTemp task.hash env.now
      ({ cache with disk := made.1 },.writing made.2 [] bytes)
    else (cache,.returned none)
  | .writing n written rest =>
    if !env.io then (cache,.returned none)
    else if rest.isEmpty then (cache,if task.cancelled then .stopped else .moving written)
    else
      let piece := rest.take (env.chunk+1)
      ({ cache with disk := cache.disk.writeAt n written.length piece env.now },.writing n (written++piece) (rest.drop (env.chunk+1)))
  | .moving bytes =>
    match if env.io then cache.disk.renameTemp task.hash else none with
    | some disk =>
      if task.cancelled then ({ cache with disk },.stopped)
      else ({ cache with disk := if env.swept then evictToBound bound env.removable disk else disk },.returned (putAnswer task.op bytes))
    | none => (cache,.returned none)
  | .deleting => (if env.io then { cache with disk := cache.disk.remove (.final task.hash) } else cache,.returned none)
  | .returned answer => (cache,.returned answer)
  | .stopped => (cache,.stopped)

def advance (cache : Cache) (i : Nat) (env : Env) : Cache :=
  match cache.tasks[i]? with
  | none => cache
  | some task =>
    { (advanceTask hashBytes bound cache task env).1 with
      tasks := cache.tasks.modify i fun t => { t with phase := (advanceTask hashBytes bound cache task env).2 } }

def Phase.onDisk : Phase → Bool
  | .creatingDir _ | .opening _ | .writing _ _ _ | .moving _ | .deleting => true
  | _ => false

def Phase.isReturned : Phase → Bool
  | .returned _ => true
  | _ => false

def stop (task : Task) : Task := if task.phase.isReturned then task else { task with phase := .stopped }

def cancelled (task : Task) : Task := if task.phase.onDisk then { task with cancelled := true } else stop task

def cancel (cache : Cache) (i : Nat) : Cache :=
  match cache.tasks[i]? with
  | none => cache
  | some task =>
    { (if task.phase = .fetching then dropGuard cache task.hash .closed else cache) with tasks := cache.tasks.modify i cancelled }

-- A new process finds the files, and nothing else.
def restart (cache : Cache) : Cache := ⟨cache.disk,∅,[],cache.tasks.map stop⟩

inductive Action where
  | get (hash : String)
  | getOrFetch (hash : String)
  | put (hash : String) (bytes : List UInt8)
  | delete (hash : String)
  | advance (i : Nat) (env : Env)
  | cancel (i : Nat)
  | restart

def spawn (cache : Cache) (hash : String) (op : Op) (phase : Phase) : Cache := { cache with tasks := cache.tasks++[⟨hash,op,phase,false⟩] }

def beginRead (hash : String) : Phase := if validateHash hash then .reading else .returned none

def beginDelete (hash : String) : Phase := if validateHash hash then .deleting else .returned none

def step (cache : Cache) : Action → Cache
  | .get hash => spawn cache hash .get (beginRead hash)
  | .getOrFetch hash => spawn cache hash .getOrFetch (beginRead hash)
  | .put hash bytes => spawn cache hash .put (beginPut hashBytes hash bytes)
  | .delete hash => spawn cache hash .delete (beginDelete hash)
  | .advance i env => advance hashBytes bound cache i env
  | .cancel i => cancel cache i
  | .restart => restart cache

end

def start : Cache := ⟨⟨∅,∅,[]⟩,∅,[],[]⟩

end EvoCore.AssetCache
