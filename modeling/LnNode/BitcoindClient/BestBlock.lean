import LnNode.OnchainWallet
import LnNode.Server.Identifiers

/-!
# The best block that bitcoind names

`get_best_block` takes the hash and the height of the tip out of a response. Hashes are written in
hexadecimal digits with their bytes reversed; one that cannot be read panics.

* `hexDecode_eq_some_iff`: the texts that are read as hexadecimal;
* `getBestBlock_iff`: the responses that a block is taken from, and those that panic.
-/

namespace LnNode.BitcoindClient.BestBlock

open LnNode.Lib.Json LnNode.Lib.Wire LnNode.Storage LnNode.OnchainWallet LnNode.Server.Identifiers

/-! ### `get_best_block` -/

/-- `BlockHash::from_str`. -/
def blockHashFromStr (text : String) : Option Bytes32 := do
  let bs ← hexDecode text
  if h : bs.length = 32 then some ⟨bs.reverse, by simpa using h⟩ else none

def blockHashToString (hash : Bytes32) : String := hexEncode hash.val.reverse

/-- What is made of the reply to `getblockchaininfo`. -/
def getBestBlock {F : Type} (reply : Except String (Value F)) : Except Failure (Bytes32 × UInt32) :=
  match reply with
  | .error e => .error (.error ("getblockchaininfo RPC call failed: " ++ e))
  | .ok response =>
    match (response.get "bestblockhash").asStr with
    | none => .error (.error "Missing or invalid bestblockhash in response")
    | some bestBlockHash =>
      match (response.get "blocks").asU64 with
      | none => .error (.error "Missing blocks in response")
      | some blockHeight =>
        match blockHashFromStr bestBlockHash with
        | none => .error .panic
        | some hash => .ok (hash, blockHeight.toUInt32)

/-! ### Hexadecimal texts -/

lemma all_digits : ("0123456789abcdefABCDEF".toList.all fun c => (List.range 16).all fun n =>
    decide (hexVal c = some n ↔ c.toLower = hexDigit n)) = true := by
  decide

lemma all_capitals : ("ABCDEFGHIJKLMNOPQRSTUVWXYZ".toList.all fun c => (List.range 16).all fun n =>
    decide (c.toLower = hexDigit n → c ∈ "0123456789abcdefABCDEF".toList)) = true := by
  decide

lemma hexVal_eq_some_of_mem {c : Char} {n : ℕ} (hc : c ∈ "0123456789abcdefABCDEF".toList)
    (hn : n < 16) : hexVal c = some n ↔ c.toLower = hexDigit n := by
  have h := List.all_eq_true.mp (List.all_eq_true.mp all_digits c hc) n (List.mem_range.mpr hn)
  exact of_decide_eq_true h

lemma char_mem {c : Char} {lo hi : ℕ} {cs : List Char} (hlo : lo ≤ c.toNat) (hhi : c.toNat ≤ hi)
    (hcs : ∀ k ≤ hi, lo ≤ k → Char.ofNat k ∈ cs) : c ∈ cs := by
  have h := hcs c.toNat hhi hlo
  rwa [Char.ofNat_toNat] at h

lemma mem_of_hexVal {c : Char} {n : ℕ} (h : hexVal c = some n) :
    n < 16 ∧ c ∈ "0123456789abcdefABCDEF".toList := by
  unfold hexVal at h
  split_ifs at h with h1 h2 h3
  · have hc : 48 ≤ c.toNat ∧ c.toNat ≤ 57 := h1
    obtain rfl := Option.some.inj h
    exact ⟨by omega, char_mem hc.1 hc.2 (by decide)⟩
  · have hc : 97 ≤ c.toNat ∧ c.toNat ≤ 102 := h2
    obtain rfl := Option.some.inj h
    exact ⟨by omega, char_mem hc.1 hc.2 (by decide)⟩
  · have hc : 65 ≤ c.toNat ∧ c.toNat ≤ 70 := h3
    obtain rfl := Option.some.inj h
    exact ⟨by omega, char_mem hc.1 hc.2 (by decide)⟩

lemma mem_of_toLower {c : Char} {n : ℕ} (hn : n < 16) (h : c.toLower = hexDigit n) :
    c ∈ "0123456789abcdefABCDEF".toList := by
  have hdigit : ∀ n < 16, hexDigit n ∈ "0123456789abcdefABCDEF".toList := by decide
  by_cases hc : 65 ≤ c.toNat ∧ c.toNat ≤ 90
  · have hmem : c ∈ "ABCDEFGHIJKLMNOPQRSTUVWXYZ".toList := char_mem hc.1 hc.2 (by decide)
    have hcapital := List.all_eq_true.mp (List.all_eq_true.mp all_capitals c hmem) n
      (List.mem_range.mpr hn)
    exact of_decide_eq_true hcapital h
  · have hlower : c.toLower = c := dif_neg hc
    rw [hlower] at h
    exact h ▸ hdigit n hn

lemma hexVal_eq_some_iff {c : Char} {n : ℕ} :
    hexVal c = some n ↔ n < 16 ∧ c.toLower = hexDigit n := by
  constructor
  · intro h
    obtain ⟨hn, hc⟩ := mem_of_hexVal h
    exact ⟨hn, (hexVal_eq_some_of_mem hc hn).mp h⟩
  · rintro ⟨hn, h⟩
    exact (hexVal_eq_some_of_mem (mem_of_toLower hn h) hn).mpr h

/-- **The texts that are read as hexadecimal** are the renderings, in either case. -/
theorem hexDecode_eq_some_iff {text : String} {bs : Bytes} :
    hexDecode text = some bs ↔ text.toList.map Char.toLower = (hexEncode bs).toList := by
  rw [hexDecode, hexEncode, String.toList_ofList]
  generalize text.toList = cs
  induction cs using readHex.induct generalizing bs with
  | case1 => cases bs <;> simp [readHex]
  | case2 c => cases bs <;> simp [readHex]
  | case3 hi lo digits ih =>
    cases bs with
    | nil => simp [readHex, Option.bind_eq_some_iff]
    | cons b bs =>
      have hb := b.toNat_lt
      simp only [readHex, Option.bind_eq_bind, Option.bind_eq_some_iff, hexVal_eq_some_iff, ih,
        List.map_cons, List.flatMap_cons, List.cons_append, List.nil_append, List.cons.injEq,
        Option.some.injEq]
      constructor
      · rintro ⟨m, ⟨hm, hhi⟩, k, ⟨hk, hlo⟩, bs', hbs, hbyte, rfl⟩
        have hmk : m = b.toNat / 16 ∧ k = b.toNat % 16 := by
          have hlt : 16 * m + k < 256 := by omega
          have hval := congrArg UInt8.toNat hbyte
          rw [UInt8.toNat_ofNat_of_lt' hlt] at hval
          omega
        exact ⟨hmk.1 ▸ hhi, hmk.2 ▸ hlo, hbs⟩
      · rintro ⟨hhi, hlo, hbs⟩
        refine ⟨_, ⟨by omega, hhi⟩, _, ⟨by omega, hlo⟩, bs, hbs, ?_, rfl⟩
        rw [Nat.div_add_mod]
        exact UInt8.ofNat_toNat

lemma blockHashFromStr_eq_some_iff {text : String} {hash : Bytes32} :
    blockHashFromStr text = some hash ↔
      text.toList.map Char.toLower = (blockHashToString hash).toList := by
  rw [blockHashToString, ← hexDecode_eq_some_iff, blockHashFromStr]
  cases hdecode : hexDecode text with
  | none => simp
  | some bs =>
    simp only [Option.bind_eq_bind, Option.bind_some, Option.some.injEq]
    constructor
    · intro h
      split_ifs at h with hlength
      obtain rfl := Option.some.inj h
      exact (List.reverse_reverse bs).symm
    · rintro rfl
      rw [dif_pos (by simpa using hash.property)]
      simp

/-! ### What is taken from a response -/

/-- The response has a text for the hash of the best block and a number for its height. -/
def Names {F : Type} (response : Value F) (text : String) (height : UInt64) : Prop :=
  (response.get "bestblockhash").asStr = some text ∧ (response.get "blocks").asU64 = some height

/-- **The responses that a block is taken from.** For every reply: a hash and a height are returned
exactly where the reply is a response that has the hash in hexadecimal, its bytes reversed and its digits
of either case, and the height up to a multiple of `2 ^ 32`. The call panics exactly where a response with
a text and a height has no such hash. Every other reply is an error. -/
theorem getBestBlock_iff {F : Type} (reply : Except String (Value F)) :
    (∀ hash height, getBestBlock reply = .ok (hash, height) ↔
      ∃ response text blocks, reply = .ok response ∧ Names response text blocks ∧
        text.toList.map Char.toLower = (blockHashToString hash).toList ∧
        height.toNat = blocks.toNat % 2 ^ 32) ∧
    (getBestBlock reply = .error .panic ↔
      ∃ response text blocks, reply = .ok response ∧ Names response text blocks ∧
        ∀ hash, text.toList.map Char.toLower ≠ (blockHashToString hash).toList) := by
  have hheight : ∀ (height : UInt32) (blocks : UInt64),
      blocks.toUInt32 = height ↔ height.toNat = blocks.toNat % 2 ^ 32 := by
    intro height blocks
    rw [← UInt32.toNat_inj, UInt64.toNat_toUInt32]
    exact eq_comm
  simp only [← blockHashFromStr_eq_some_iff, ne_eq, ← hheight]
  unfold getBestBlock Names
  cases reply with
  | error e => simp
  | ok response =>
    cases htext : (response.get "bestblockhash").asStr with
    | none => simp [htext]
    | some text =>
      cases hblocks : (response.get "blocks").asU64 with
      | none => simp [htext, hblocks]
      | some blocks =>
        cases hhash : blockHashFromStr text with
        | none => simp [htext, hblocks, hhash]
        | some hash =>
          refine ⟨by simp [htext, hblocks, hhash], iff_of_false (by simp [htext, hblocks, hhash]) ?_⟩
          rintro ⟨response', text', blocks', heq, ⟨htext', -⟩, hno⟩
          obtain rfl := Except.ok.inj heq
          obtain rfl := Option.some.inj (htext.symm.trans htext')
          exact hno hash hhash

end LnNode.BitcoindClient.BestBlock
