import LnNode.EventHandler.ChannelPolicy
import LnNode.Lib.Json.Struct

/-!
# The configuration

`Config`, how it is read from `config.json`, and what of it `main` hands to the builder: the four
settings of bitcoind's RPC interface, on top of the defaults for everything else.

How a network is named and how the value of an unknown field is skipped is code outside the repository:
both are parameters.

* `fromStr_eq_some_iff`: the texts that are accepted, and what they say;
* `runsAsWritten_iff`: what a node that was started with such a text runs with, and where it looks for
  bitcoind.
-/

namespace LnNode

open LnNode.Lib.Json LnNode.EventHandler

/-! ### `Config` -/

inductive Network where
  | bitcoin
  | testnet
  | testnet4
  | signet
  | regtest
  deriving DecidableEq, Repr

structure Config where
  bitcoindRpcHost : String
  bitcoindRpcPort : UInt16
  bitcoindUsername : String
  bitcoindPassword : String
  nodePath : String
  network : Network
  minChannelValueSat : UInt64
  defaultChannelPublic : Bool
  maxPendingHtlcs : UInt16
  deriving DecidableEq

namespace Config

/-- `PathBuf::push` of a relative path. -/
def pushPath (path name : String) : String :=
  if path = "" ∨ path.toList.getLast? = some '/' then path ++ name else path ++ "/" ++ name

def default (homeDir : String) : Config where
  bitcoindRpcHost := "127.0.0.1"
  bitcoindRpcPort := 18443
  bitcoindUsername := "user"
  bitcoindPassword := "password"
  nodePath := pushPath homeDir ".lightning-node"
  network := .regtest
  minChannelValueSat := 100000
  defaultChannelPublic := true
  maxPendingHtlcs := 50

def defaultNetwork : Network := .regtest

/-! ### `Deserialize for Config` -/

section Deserialize

variable {F : Type}

/-- What the derived code leaves to others. -/
structure Readers (F : Type) where
  text : FloatText F
  skip : Parser Unit
  network : Value F → Option Network

def asU16 : Value F → Option UInt16
  | .int n => if 0 ≤ n.val ∧ n.val < 2 ^ 16 then some (.ofNat n.val.toNat) else none
  | _ => none

def ofU16 (n : UInt16) : Value F := .int ⟨n.toNat, by have := n.toNat_lt; omega⟩

def asBool : Value F → Option Bool
  | .bool b => some b
  | _ => none

def fieldNames : List String :=
  ["bitcoind_rpc_host", "bitcoind_rpc_port", "bitcoind_username", "bitcoind_password", "node_path",
    "network", "min_channel_value_sat", "default_channel_public", "max_pending_htlcs"]

def ofFields (R : Readers F) (fields : List (String × Value F)) : Option Config := do
  let bitcoindRpcHost ← required Value.asStr fields "bitcoind_rpc_host"
  let bitcoindRpcPort ← required asU16 fields "bitcoind_rpc_port"
  let bitcoindUsername ← required Value.asStr fields "bitcoind_username"
  let bitcoindPassword ← required Value.asStr fields "bitcoind_password"
  let nodePath ← optional Value.asStr fields "node_path" ""
  let network ← optional R.network fields "network" defaultNetwork
  let minChannelValueSat ← optional Value.asU64 fields "min_channel_value_sat" 0
  let defaultChannelPublic ← optional asBool fields "default_channel_public" false
  let maxPendingHtlcs ← optional asU16 fields "max_pending_htlcs" 0
  some { bitcoindRpcHost, bitcoindRpcPort, bitcoindUsername, bitcoindPassword, nodePath, network,
         minChannelValueSat, defaultChannelPublic, maxPendingHtlcs }

def fromStr (R : Readers F) (text : List Char) : Option Config :=
  (readStruct R.text R.skip fieldNames text).bind (ofFields R)

end Deserialize

/-! ### `main` up to the build -/

structure NodeBuilder where
  config : Config
  ldkConfig : ChannelPolicy.UserConfig

def channels (config : Config) : ChannelPolicy.Config where
  minChannelValueSat := config.minChannelValueSat.toNat
  defaultChannelPublic := config.defaultChannelPublic
  maxPendingHtlcs := config.maxPendingHtlcs.toNat

namespace NodeBuilder

def new (config : Config) : NodeBuilder where
  config := config
  ldkConfig := (ChannelPolicy.NodeBuilder.new config.channels).ldkConfig

def setupBitcoindRpcClient (b : NodeBuilder) (rpcHost : String) (rpcPort : UInt16)
    (user password : String) : NodeBuilder :=
  { b with
    config := { b.config with
      bitcoindRpcHost := rpcHost
      bitcoindRpcPort := rpcPort
      bitcoindUsername := user
      bitcoindPassword := password } }

/-- Where the client of `build` finds bitcoind, and what is encoded as the credentials. -/
def rpcEndpoint (b : NodeBuilder) : String × UInt16 × String :=
  (b.config.bitcoindRpcHost, b.config.bitcoindRpcPort,
    b.config.bitcoindUsername ++ ":" ++ b.config.bitcoindPassword)

/-- `start` has a client of its own for the blocks the wallet has missed, whose bitcoind is fixed. -/
def emitterEndpoint : String × UInt16 × String := ("127.0.0.1", 18446, "polaruser:polarpass")

/-- Where a node that was built looks for bitcoind. -/
def endpoints (b : NodeBuilder) : List (String × UInt16 × String) := [b.rpcEndpoint, emitterEndpoint]

end NodeBuilder

/-- What `main` builds the node with, if it comes to that: it ends where `config.json` cannot be read, is
not accepted, or no home directory is known. -/
def mainBuilder {F : Type} (R : Readers F) (homeDir : Option String) (configJson : Option ByteArray) :
    Option NodeBuilder := do
  let bytes ← configJson
  let text ← bytes.utf8Decode?
  let conf ← fromStr R text.toList
  let homeDir ← homeDir
  some ((NodeBuilder.new (default homeDir)).setupBitcoindRpcClient conf.bitcoindRpcHost
    conf.bitcoindRpcPort conf.bitcoindUsername conf.bitcoindPassword)

/-! ### What is accepted -/

section Accepted

variable {F : Type}

/-- The fields say the configuration: each of the four that are required once, each of the others at most
once, and what is left out is what the derived code puts in its place. -/
structure Describes (R : Readers F) (fields : List (String × Value F)) (c : Config) : Prop where
  bitcoindRpcHost : Gives fields "bitcoind_rpc_host" (.string c.bitcoindRpcHost)
  bitcoindRpcPort : Gives fields "bitcoind_rpc_port" (ofU16 c.bitcoindRpcPort)
  bitcoindUsername : Gives fields "bitcoind_username" (.string c.bitcoindUsername)
  bitcoindPassword : Gives fields "bitcoind_password" (.string c.bitcoindPassword)
  nodePath : Gives fields "node_path" (.string c.nodePath) ∨
    Lacks fields "node_path" ∧ "" = c.nodePath
  network : (∃ v, Gives fields "network" v ∧ R.network v = some c.network) ∨
    Lacks fields "network" ∧ defaultNetwork = c.network
  minChannelValueSat : Gives fields "min_channel_value_sat" (ofU64 c.minChannelValueSat) ∨
    Lacks fields "min_channel_value_sat" ∧ 0 = c.minChannelValueSat
  defaultChannelPublic : Gives fields "default_channel_public" (.bool c.defaultChannelPublic) ∨
    Lacks fields "default_channel_public" ∧ false = c.defaultChannelPublic
  maxPendingHtlcs : Gives fields "max_pending_htlcs" (ofU16 c.maxPendingHtlcs) ∨
    Lacks fields "max_pending_htlcs" ∧ 0 = c.maxPendingHtlcs

variable {R : Readers F} {fields : List (String × Value F)} {v : Value F} {c : Config}

lemma asStr_eq_some {s : String} : v.asStr = some s ↔ v = .string s := by
  cases v <;> simp [Value.asStr]

lemma asBool_eq_some {b : Bool} : asBool v = some b ↔ v = .bool b := by
  cases v <;> simp [asBool]

lemma asU64_eq_some {n : UInt64} : v.asU64 = some n ↔ v = ofU64 n := by
  constructor
  · intro h
    cases v with
    | int i =>
      obtain ⟨i, hlo, hhi⟩ := i
      rw [Value.asU64, Option.ite_none_right_eq_some] at h
      have hpos : 0 ≤ i := h.1
      have hlt : i.toNat < 2 ^ 64 := by omega
      have hi : (UInt64.ofNat i.toNat).toNat = i.toNat := UInt64.toNat_ofNat_of_lt' hlt
      obtain rfl : UInt64.ofNat i.toNat = n := Option.some.inj h.2
      rw [ofU64]
      congr
      omega
    | _ => cases h
  · rintro rfl
    exact asU64_ofU64 n

lemma asU16_eq_some {n : UInt16} : asU16 v = some n ↔ v = ofU16 n := by
  have hn := n.toNat_lt
  constructor
  · intro h
    cases v with
    | int i =>
      obtain ⟨i, hlo, hhi⟩ := i
      rw [asU16, Option.ite_none_right_eq_some] at h
      have hpos : 0 ≤ i ∧ i < 2 ^ 16 := h.1
      have hlt : i.toNat < 2 ^ 16 := by omega
      have hi : (UInt16.ofNat i.toNat).toNat = i.toNat := UInt16.toNat_ofNat_of_lt' hlt
      obtain rfl : UInt16.ofNat i.toNat = n := Option.some.inj h.2
      rw [ofU16]
      congr
      omega
    | _ => cases h
  · rintro rfl
    simp only [ofU16, asU16]
    rw [if_pos ⟨by omega, by omega⟩]
    simp

lemma ofFields_eq_some : ofFields R fields = some c ↔ Describes R fields c := by
  simp only [ofFields, Option.bind_eq_bind, Option.bind_eq_some_iff, required_eq_some, optional_eq_some,
    asStr_eq_some, asU16_eq_some, asU64_eq_some, asBool_eq_some, Option.some.injEq]
  constructor
  · rintro ⟨host, ⟨_, hhost, rfl⟩, port, ⟨_, hport, rfl⟩, user, ⟨_, huser, rfl⟩, password,
      ⟨_, hpassword, rfl⟩, path, hpath, network, hnetwork, least, hleast, isPublic, hpublic,
      htlcs, hhtlcs, rfl⟩
    exact ⟨hhost, hport, huser, hpassword, by simpa using hpath, hnetwork, by simpa using hleast,
      by simpa using hpublic, by simpa using hhtlcs⟩
  · intro h
    exact ⟨_, ⟨_, h.bitcoindRpcHost, rfl⟩, _, ⟨_, h.bitcoindRpcPort, rfl⟩, _,
      ⟨_, h.bitcoindUsername, rfl⟩, _, ⟨_, h.bitcoindPassword, rfl⟩, _, by simpa using h.nodePath, _,
      h.network, _, by simpa using h.minChannelValueSat, _, by simpa using h.defaultChannelPublic, _,
      by simpa using h.maxPendingHtlcs, rfl⟩

lemma ofFields_keepKnown : ofFields R (fields.map (keepKnown fieldNames)) = ofFields R fields := by
  simp (disch := decide) only [ofFields, required_keepKnown, optional_keepKnown]

/-- **A name that is left out** of the fields other than the network says something that is never the
default of a node. -/
lemma ne_default_of_lacks {homeDir name : String} (h : Describes R fields c) (hname : name ∈ fieldNames)
    (hnetwork : name ≠ "network") (hlacks : Lacks fields name) :
    ¬ (c.nodePath = (default homeDir).nodePath ∧ c.minChannelValueSat = 100000 ∧
      c.defaultChannelPublic = true ∧ c.maxPendingHtlcs = 50) := by
  have hrequired : ∀ v, ¬ Gives fields name v := by
    intro v hgives
    have hmem : (name, v) ∈ fields.filter fun f => f.1 = name := by
      rw [hgives]
      exact List.mem_cons_self
    exact hlacks _ (List.mem_filter.mp hmem).1 rfl
  have hpath : (default homeDir).nodePath ≠ "" := by
    rw [default, pushPath]
    split_ifs <;> simp [String.append_eq_empty_iff]
  simp only [fieldNames, List.mem_cons, List.not_mem_nil, or_false] at hname
  rintro ⟨h1, h2, h3, h4⟩
  rcases hname with rfl | rfl | rfl | rfl | rfl | rfl | rfl | rfl | rfl
  · exact hrequired _ h.bitcoindRpcHost
  · exact hrequired _ h.bitcoindRpcPort
  · exact hrequired _ h.bitcoindUsername
  · exact hrequired _ h.bitcoindPassword
  · rcases h.nodePath with hgives | ⟨-, hmissing⟩
    · exact hrequired _ hgives
    · exact hpath (h1.symm.trans hmissing.symm)
  · exact hnetwork rfl
  · rcases h.minChannelValueSat with hgives | ⟨-, hmissing⟩
    · exact hrequired _ hgives
    · exact absurd (hmissing.trans h2) (by decide)
  · rcases h.defaultChannelPublic with hgives | ⟨-, hmissing⟩
    · exact hrequired _ hgives
    · exact absurd (hmissing.trans h3) (by decide)
  · rcases h.maxPendingHtlcs with hgives | ⟨-, hmissing⟩
    · exact hrequired _ hgives
    · exact absurd (hmissing.trans h4) (by decide)

end Accepted

/-! ### A file with the four settings that are required -/

/-- Numbers are all integers, and unknown fields are read as values. -/
def plainReaders : Readers Empty where
  text := { print := Empty.elim, parse := fun _ => none }
  skip cs :=
    (readValue { print := Empty.elim, parse := fun _ => none } structDepth cs).map fun v => ((), v.2)
  network v := if v.asStr = some "regtest" then some .regtest else none

lemma skips_plainReaders : Skips plainReaders.text plainReaders.skip := by
  intro v rest hv hrest
  show (readValue plainReaders.text structDepth _).map _ = _
  rw [readValue_print hv hrest, Option.map_some]

/-- The required fields in another order, with a name that nobody asks for. -/
def fourFields : List (String × Value Empty) :=
  [("bitcoind_password", .string "secret"), ("comment", .array [.null]),
    ("bitcoind_rpc_port", ofU16 8332), ("bitcoind_rpc_host", .string "10.0.0.2"),
    ("bitcoind_username", .string "alice")]

def fourSettings : Config where
  bitcoindRpcHost := "10.0.0.2"
  bitcoindRpcPort := 8332
  bitcoindUsername := "alice"
  bitcoindPassword := "secret"
  nodePath := ""
  network := .regtest
  minChannelValueSat := 0
  defaultChannelPublic := false
  maxPendingHtlcs := 0

lemma wellFormed_fourFields : ∀ f ∈ fourFields, WellFormed plainReaders.text structDepth f.2 := by
  have harray : WellFormed plainReaders.text structDepth (.array [.null] : Value Empty) :=
    wellFormed_array (by simp)
  simp only [fourFields, List.forall_mem_cons, wellFormed_string, harray, ofU16, wellFormed_int,
    true_and]
  simp

lemma describes_fourFields : Describes plainReaders fourFields fourSettings where
  bitcoindRpcHost := rfl
  bitcoindRpcPort := rfl
  bitcoindUsername := rfl
  bitcoindPassword := rfl
  nodePath := Or.inr ⟨by simp [Lacks, fourFields], rfl⟩
  network := Or.inr ⟨by simp [Lacks, fourFields], rfl⟩
  minChannelValueSat := Or.inr ⟨by simp [Lacks, fourFields], rfl⟩
  defaultChannelPublic := Or.inr ⟨by simp [Lacks, fourFields], rfl⟩
  maxPendingHtlcs := Or.inr ⟨by simp [Lacks, fourFields], rfl⟩

/-! ### Main results -/

/-- **What is accepted.** For every object, with its fields in any order, any number of times and among
fields of other names, and every array: the text is read as a configuration exactly when it says that
configuration. An array gives the fields in the order of their declaration, and no more than there
are. -/
theorem fromStr_eq_some_iff {F : Type} (R : Readers F) (hskip : Skips R.text R.skip)
    (fields : List (String × Value F)) (hfields : ∀ f ∈ fields, WellFormed R.text structDepth f.2)
    (vs : List (Value F)) (hvs : ∀ v ∈ vs, WellFormed R.text structDepth v) (c : Config) :
    (fromStr R (print R.text (.object fields)) = some c ↔ Describes R fields c) ∧
      (fromStr R (print R.text (.array vs)) = some c ↔
        vs.length ≤ fieldNames.length ∧ Describes R (fieldNames.zip vs) c) := by
  constructor
  · rw [fromStr, readStruct_object hskip hfields, Option.bind_some, ofFields_keepKnown, ofFields_eq_some]
  · rw [fromStr, readStruct_array hvs]
    split_ifs with hlength
    · rw [Option.bind_some, ofFields_eq_some]
      exact (and_iff_right hlength).symm
    · simp [hlength]

theorem fromStr_eq_some_iff_four :
    fromStr plainReaders (print plainReaders.text (.object fourFields)) = some fourSettings :=
  (fromStr_eq_some_iff plainReaders skips_plainReaders fourFields wellFormed_fourFields [] (by simp)
    fourSettings).1.mpr describes_fourFields

/-- **What a node runs with.** For every `config.json` whose text is accepted: `main` builds a node, whose
client looks for bitcoind where the file says and with its credentials. The client that brings the wallet
up to date does not, so that the node as a whole looks where the file says exactly when the file says what
is fixed in `start`. Whatever else the file says, LDK gets the default settings, so that the node runs
with what the file says exactly when this is the default for everything else, and never when the file
leaves out one of its names other than the network. -/
theorem runsAsWritten_iff {F : Type} (R : Readers F) (homeDir : String) (configJson : ByteArray)
    (text : Array Char) (htext : configJson.utf8Decode? = some text) (c : Config)
    (h : fromStr R text.toList = some c) :
    ∃ b, mainBuilder R (some homeDir) (some configJson) = some b ∧
      b.rpcEndpoint =
        (c.bitcoindRpcHost, c.bitcoindRpcPort, c.bitcoindUsername ++ ":" ++ c.bitcoindPassword) ∧
      ((∀ endpoint ∈ b.endpoints, endpoint = b.rpcEndpoint) ↔
        c.bitcoindRpcHost = "127.0.0.1" ∧ c.bitcoindRpcPort = 18446 ∧
          c.bitcoindUsername ++ ":" ++ c.bitcoindPassword = "polaruser:polarpass") ∧
      b.ldkConfig = (NodeBuilder.new (default homeDir)).ldkConfig ∧
      (b.config = c ↔ c.nodePath = (default homeDir).nodePath ∧ c.network = .regtest ∧
        c.minChannelValueSat = 100000 ∧ c.defaultChannelPublic = true ∧ c.maxPendingHtlcs = 50) ∧
      (b.config = c → ∀ fields, readStruct R.text R.skip fieldNames text.toList = some fields →
        ∀ name ∈ fieldNames, name ≠ "network" → ¬ Lacks fields name) := by
  have hbuilder : mainBuilder R (some homeDir) (some configJson) =
      some ((NodeBuilder.new (default homeDir)).setupBitcoindRpcClient c.bitcoindRpcHost
        c.bitcoindRpcPort c.bitcoindUsername c.bitcoindPassword) := by
    simp only [mainBuilder, Option.bind_eq_bind, Option.bind_some, htext, h]
  have hiff : ((NodeBuilder.new (default homeDir)).setupBitcoindRpcClient c.bitcoindRpcHost
        c.bitcoindRpcPort c.bitcoindUsername c.bitcoindPassword).config = c ↔
      c.nodePath = (default homeDir).nodePath ∧ c.network = .regtest ∧
        c.minChannelValueSat = 100000 ∧ c.defaultChannelPublic = true ∧ c.maxPendingHtlcs = 50 := by
    cases c
    simp only [NodeBuilder.setupBitcoindRpcClient, NodeBuilder.new, default, mk.injEq, true_and, eq_comm]
  refine ⟨_, hbuilder, rfl, ?_, rfl, hiff, fun hruns fields hfields name hname hnetwork hlacks => ?_⟩
  · simp [NodeBuilder.endpoints, NodeBuilder.emitterEndpoint, NodeBuilder.rpcEndpoint,
      NodeBuilder.setupBitcoindRpcClient, eq_comm]
  · obtain ⟨h1, -, h3, h4, h5⟩ := hiff.mp hruns
    have hsays : Describes R fields c := by
      rw [fromStr, hfields, Option.bind_some] at h
      exact ofFields_eq_some.mp h
    exact ne_default_of_lacks hsays hname hnetwork hlacks ⟨h1, h3, h4, h5⟩

/-- The four settings as an array, on two lines. -/
def fourValues : List Char := "[ \"10.0.0.2\", 8332,\n  \"alice\", \"secret\" ]\n".toList

theorem runsAsWritten_iff_array :
    ∃ b, mainBuilder plainReaders (some "/root") (some fourValues.utf8Encode) = some b ∧
      b.rpcEndpoint = ("10.0.0.2", 8332, "alice:secret") ∧
      (¬ ∀ endpoint ∈ b.endpoints, endpoint = b.rpcEndpoint) ∧ b.config ≠ fourSettings := by
  have hread : fromStr plainReaders fourValues = some fourSettings := by decide +kernel
  obtain ⟨b, hb, hrpc, hendpoints, -, hconfig, -⟩ := runsAsWritten_iff plainReaders "/root"
    fourValues.utf8Encode fourValues.toArray List.utf8Decode?_utf8Encode fourSettings hread
  exact ⟨b, hb, hrpc, fun hall => absurd (hendpoints.mp hall).1 (by decide),
    fun hruns => absurd (hconfig.mp hruns).2.2.1 (by decide)⟩

end Config

end LnNode
