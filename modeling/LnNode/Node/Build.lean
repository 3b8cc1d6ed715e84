import LnNode.Node.Start
import LnNode.Storage
import LnNode.Lib.Run

/-!
# `NodeBuilder::build`: what is on disk

The node's keys are files below a store directory that the first write creates. `build` reads the
network graph and the scorer, takes new ones where their files are missing, and decides by the
directory whether the channel manager is a fresh one or is loaded.

How LDK's objects are encoded is code outside the repository: the readers are parameters.

* `build_of_missing`, `build_of_present`: fresh without the directory, never fresh with it;
* `always_startsConsistently_iff`: over any run of builds, writes and kills, a start is consistent
  with what is on disk exactly when the store directory is never created by a key other than the
  manager's or a monitor's.
-/

namespace LnNode.Node.Build

open LnNode.Lib.BlockTree LnNode.Lib.Run LnNode.Lib.Wire LnNode.OnchainWallet LnNode.BitcoindClient
  LnNode.Storage

/-! ### The keys of the node -/

def networkGraphKey : StoreKey := ⟨"", "", "network_graph"⟩

def scorerKey : StoreKey := ⟨"", "", "scorer"⟩

def managerKey : StoreKey := ⟨"", "", "manager"⟩

def isMonitorKey (key : StoreKey) : Bool :=
  key.primaryNamespace == "monitors" && key.secondaryNamespace == ""

/-- The store directory, if it exists, with its files. -/
abbrev StoreDir := Option KvStore

/-- A read below a directory that does not exist finds nothing. -/
def StoreDir.files (dir : StoreDir) : KvStore := dir.getD ∅

/-- The first write of any key creates the directory. -/
def StoreDir.write (dir : StoreDir) (key : StoreKey) (data : Bytes) : StoreDir :=
  some (dir.files.insert key data)

/-! ### `build` -/

/-- How LDK reads its objects back. The manager is read with the monitors at hand. -/
structure Readers where
  networkGraph : Bytes → Except String Unit
  scorer : Bytes → Except String Unit
  channelMonitor : Bytes → Except IoError ChannelMonitor
  channelManager : Bytes → List ChannelMonitor → Except String (Chain Block)

inductive BuildError where
  | message (text : String)
  | io (e : IoError)
  | watch (e : Start.StartError)

/-- A node with a fresh channel manager, or with the one that was loaded. -/
inductive Built where
  | fresh (node : ChainListener)
  | loaded (node : ChainListener)

/-- An object that is taken new when its file is missing. -/
def readOrNew (dir : StoreDir) (key : StoreKey) (read : Bytes → Except String Unit)
    (undecodable unreadable : String) : Except BuildError Unit :=
  match dir.files.read none key with
  | .ok data =>
    match read data with
    | .ok () => .ok ()
    | .error e => .error (.message (undecodable ++ e))
  | .error .notFound => .ok ()
  | .error (.invalidData e) | .error (.other e) => .error (.message (unreadable ++ e))

def readNetworkGraph (r : Readers) (dir : StoreDir) : Except BuildError Unit :=
  readOrNew dir networkGraphKey r.networkGraph "Failed to deserialize NetworkGraph: "
    "Could not read network graph from disk "

def readScorer (r : Readers) (dir : StoreDir) : Except BuildError Unit :=
  readOrNew dir scorerKey r.scorer "Failed to deserialize scorer: "
    "Could not scoring data from disk "

def readChannelMonitors (r : Readers) (store : KvStore) : Except IoError (List ChannelMonitor) :=
  (store.entries.filter fun entry => isMonitorKey entry.1).mapM fun entry =>
    r.channelMonitor entry.2

/-- The manager's file is opened without a look whether it is there. -/
def loadNode (r : Readers) (store : KvStore) (wallet : BdkWallet) :
    Except BuildError ChainListener :=
  match readChannelMonitors r store with
  | .error e => .error (.io e)
  | .ok monitors =>
    match store.read none managerKey with
    | .error e => .error (.io e)
    | .ok data =>
      match r.channelManager data monitors with
      | .error e => .error (.message ("Could not read channel manager from disk " ++ e))
      | .ok manager =>
        match Start.build manager monitors wallet with
        | .error e => .error (.watch e)
        | .ok node => .ok node

/-- A node at the best block that bitcoind names. -/
def newNode (bestBlock : Chain Block) (wallet : BdkWallet) : ChainListener where
  channelManager := bestBlock
  chainMonitor := []
  onchainWallet := { bdkWallet := wallet }

/-- Fresh or loaded is decided by the existence of the directory. -/
def build (r : Readers) (dir : StoreDir) (bestBlock : Chain Block) (wallet : BdkWallet) :
    Except BuildError Built :=
  match readNetworkGraph r dir with
  | .error e => .error e
  | .ok () =>
    match readScorer r dir with
    | .error e => .error e
    | .ok () =>
      match dir with
      | none => .ok (.fresh (newNode bestBlock wallet))
      | some store =>
        match loadNode r store wallet with
        | .error e => .error e
        | .ok node => .ok (.loaded node)

section Build

variable {r : Readers} {bestBlock : Chain Block} {wallet : BdkWallet} {store : KvStore}

theorem build_of_missing :
    build r none bestBlock wallet = .ok (.fresh (newNode bestBlock wallet)) := rfl

theorem build_of_present (node : ChainListener) :
    build r (some store) bestBlock wallet ≠ .ok (.fresh node) := by
  unfold build
  cases readNetworkGraph r (some store) with
  | error e => simp
  | ok u =>
    cases readScorer r (some store) with
    | error e => simp
    | ok u => cases h : loadNode r store wallet <;> simp [h]

end Build

/-! ### What a start owes to the disk -/

def NeitherOnDisk (dir : StoreDir) : Prop :=
  dir.files.lookup managerKey = none ∧
    ∀ key, isMonitorKey key = true → dir.files.lookup key = none

/-- The manager is fresh exactly when neither it nor a monitor is on disk. -/
def StartsConsistently (r : Readers) (dir : StoreDir) : Prop :=
  ∀ bestBlock wallet,
    (∀ node, build r dir bestBlock wallet = .ok (.fresh node) → NeitherOnDisk dir) ∧
    (NeitherOnDisk dir → ∃ node, build r dir bestBlock wallet = .ok (.fresh node))

lemma neitherOnDisk_missing : NeitherOnDisk none := ⟨rfl, fun _ _ => rfl⟩

/-- **One disk**: the next start is consistent exactly when the directory does not exist without the
manager or a monitor. -/
theorem startsConsistently_iff (r : Readers) (dir : StoreDir) :
    StartsConsistently r dir ↔ (dir.isSome → ¬ NeitherOnDisk dir) := by
  cases dir with
  | none =>
    simp only [Option.isSome_none, Bool.false_eq_true, false_implies, iff_true]
    exact fun bestBlock wallet => ⟨fun _ _ => neitherOnDisk_missing, fun _ => ⟨_, build_of_missing⟩⟩
  | some store =>
    simp only [Option.isSome_some, forall_const]
    constructor
    · intro h hneither
      obtain ⟨node, hnode⟩ := (h [] loadedWallet).2 hneither
      exact build_of_present node hnode
    · exact fun h bestBlock wallet =>
        ⟨fun node hnode => absurd hnode (build_of_present node), fun hneither => absurd hneither h⟩

/-! ### Runs -/

/-- The disk, and whether a process runs on it. -/
structure Machine where
  dir : StoreDir
  running : Bool

inductive Action where
  | build (bestBlock : Chain Block) (wallet : BdkWallet)
  /-- The background processor and the chain monitor write their keys in any order. -/
  | write (key : StoreKey) (data : Bytes)
  | kill

def isNodeKey (key : StoreKey) : Bool :=
  key == networkGraphKey || key == scorerKey || key == managerKey || isMonitorKey key

def machineStep (r : Readers) (s : Machine) : Action → Option Machine
  | .build bestBlock wallet =>
    if s.running then none
    else some { s with running := (build r s.dir bestBlock wallet).toOption.isSome }
  | .write key data =>
    if s.running && isNodeKey key then some { s with dir := s.dir.write key data } else none
  | .kill => some { s with running := false }

def emptyDir : Machine := { dir := none, running := false }

/-- The store directory is not created by a key other than the manager's or a monitor's. -/
def CreatedByManager (s : Machine) : Action → Prop
  | .write key _ => s.dir.isSome = true ∨ key = managerKey ∨ isMonitorKey key = true
  | _ => True

section Runs

variable {r : Readers} {s s' : Machine} {dir : StoreDir} {key : StoreKey} {data : Bytes}

lemma lookup_write_self : (dir.write key data).files.lookup key = some data := by
  simp [StoreDir.write, StoreDir.files]

lemma lookup_write_isSome {k : StoreKey} (h : dir.files.lookup k ≠ none) :
    (dir.write key data).files.lookup k ≠ none := by
  by_cases hk : k = key
  · subst hk
    rw [lookup_write_self]
    simp
  · have : (dir.write key data).files.lookup k = dir.files.lookup k := by
      simp only [StoreDir.write, StoreDir.files, Option.getD_some]
      exact AList.lookup_insert_ne hk
    rwa [this]

lemma not_neitherOnDisk_write (h : ¬ NeitherOnDisk dir) : ¬ NeitherOnDisk (dir.write key data) := by
  intro hneither
  refine h ⟨?_, fun k hk => ?_⟩
  · by_contra hman
    exact lookup_write_isSome hman hneither.1
  · by_contra hmon
    exact lookup_write_isSome hmon (hneither.2 k hk)

/-- A first write leaves neither on disk, unless it is of the manager or of a monitor. -/
lemma neitherOnDisk_write_missing :
    NeitherOnDisk (StoreDir.write none key data) ↔ ¬ (key = managerKey ∨ isMonitorKey key = true) := by
  have hother : ∀ k, k ≠ key → (StoreDir.write none key data).files.lookup k = none := by
    intro k hk
    simp only [StoreDir.write, StoreDir.files, Option.getD_some]
    rw [AList.lookup_insert_ne hk]
    rfl
  constructor
  · rintro ⟨hman, hmon⟩ (rfl | hkey)
    · rw [lookup_write_self] at hman
      cases hman
    · have := hmon key hkey
      rw [lookup_write_self] at this
      cases this
  · intro hkey
    push Not at hkey
    exact ⟨hother managerKey (Ne.symm hkey.1), fun k hk => hother k fun he => hkey.2 (he ▸ hk)⟩

/-- **When every start is consistent with the disk.** For every run of builds, writes of the node's
keys in any order and kills at any point, from an empty directory: in every state reached the next
start takes a fresh channel manager exactly when neither the manager nor a monitor is on disk, if and
only if the store directory is never created by another key. -/
theorem always_startsConsistently_iff (r : Readers) (as : List Action) :
    Always (machineStep r) (fun s => StartsConsistently r s.dir) emptyDir as ↔
      StepsMeet (machineStep r) CreatedByManager emptyDir as := by
  refine always_iff_stepsMeet (I := fun s => s.dir.isSome = true → ¬ NeitherOnDisk s.dir) ?_ ?_ ?_ ?_
  · intro h
    cases h
  · exact fun s => (startsConsistently_iff r s.dir).mpr
  · intro s a s' hI hok hs
    cases a with
    | build bestBlock wallet =>
      rw [machineStep] at hs
      split_ifs at hs
      cases hs
      exact hI
    | kill =>
      cases hs
      exact hI
    | write key data =>
      rw [machineStep] at hs
      split_ifs at hs
      cases hs
      intro _
      cases hdir : s.dir with
      | some store =>
        rw [hdir] at hI
        exact not_neitherOnDisk_write (hI rfl)
      | none =>
        rcases hok with hsome | hkey
        · rw [hdir] at hsome
          cases hsome
        · exact fun hneither => neitherOnDisk_write_missing.mp hneither hkey
  · intro s a s' hI hs hP
    cases a with
    | build bestBlock wallet => trivial
    | kill => trivial
    | write key data =>
      rw [machineStep] at hs
      split_ifs at hs
      cases hs
      have hnot := (startsConsistently_iff r _).mp hP rfl
      cases hdir : s.dir with
      | some store => exact Or.inl (by rw [hdir]; rfl)
      | none =>
        right
        by_contra hkey
        simp only [hdir] at hnot
        exact hnot (neitherOnDisk_write_missing.mpr hkey)

end Runs

/-! ### A first run that is killed -/

/-- Readers that read everything back, with a manager and monitors at the root. -/
def lenientReaders : Readers where
  networkGraph _ := .ok ()
  scorer _ := .ok ()
  channelMonitor _ := .ok (.atBlock 0 [])
  channelManager _ _ := .ok []

/-- **The network graph is written first and the process is killed**: no manager and no monitor is on
disk, and the next build does not take a fresh manager but fails for want of the manager's file. -/
theorem not_startsConsistently_killed :
    ∃ s, run (machineStep lenientReaders) emptyDir
        [.build [] loadedWallet, .write networkGraphKey [0], .kill] = some s ∧
      NeitherOnDisk s.dir ∧
      build lenientReaders s.dir [] loadedWallet = .error (.io .notFound) ∧
      ¬ StartsConsistently lenientReaders s.dir := by
  have hneither : NeitherOnDisk (StoreDir.write none networkGraphKey [0]) :=
    neitherOnDisk_write_missing.mpr (by decide)
  refine ⟨_, rfl, hneither, rfl, fun h => ?_⟩
  obtain ⟨node, hnode⟩ := (h [] loadedWallet).2 hneither
  exact build_of_present node hnode

end LnNode.Node.Build
