import LnNode.Lib.Refresh
import Mathlib.Data.List.AList

/-!
# The order of the fee estimates

LDK reads a fee for each of eight targets from a cache. Every five minutes the targets are asked for one
after another, and each answer is stored at once; a call that fails leaves what was there. So a reader
sees values of this round, of earlier ones and of the fallbacks side by side.

* `always_ordered_iff`: the rounds that keep the estimates ordered in every state a reader can see;
* `always_floor`: no value is ever below 253;
* `always_ordered_round_iff`: what this asks of a round whose rates do not increase with the number of
  blocks.
-/

namespace LnNode.BitcoindClient.FeeEstimates

open LnNode.Lib.Run LnNode.Lib.Refresh

/-! ### The targets -/

inductive ConfirmationTarget where
  | maximumFeeEstimate
  | urgentOnChainSweep
  | minAllowedAnchorChannelRemoteFee
  | minAllowedNonAnchorChannelRemoteFee
  | anchorChannelFee
  | nonAnchorChannelFee
  | channelCloseMinimum
  | outputSpendingFee
  deriving DecidableEq, Repr

def confTargets : List ConfirmationTarget :=
  [.maximumFeeEstimate, .urgentOnChainSweep, .minAllowedAnchorChannelRemoteFee,
    .minAllowedNonAnchorChannelRemoteFee, .anchorChannelFee, .nonAnchorChannelFee,
    .channelCloseMinimum, .outputSpendingFee]

def confirmationTargetToBlocks : ConfirmationTarget → ℕ
  | .maximumFeeEstimate => 1
  | .urgentOnChainSweep => 1
  | .outputSpendingFee => 6
  | .minAllowedAnchorChannelRemoteFee => 1008
  | .minAllowedNonAnchorChannelRemoteFee => 144
  | .anchorChannelFee => 1008
  | .nonAnchorChannelFee => 12
  | .channelCloseMinimum => 144

def getFallbackFee : ConfirmationTarget → UInt32
  | .maximumFeeEstimate => 10000
  | .urgentOnChainSweep => 5000
  | .outputSpendingFee => 4000
  | .minAllowedAnchorChannelRemoteFee => 253
  | .minAllowedNonAnchorChannelRemoteFee => 1000
  | .anchorChannelFee => 253
  | .nonAnchorChannelFee => 3000
  | .channelCloseMinimum => 1000

lemma mem_confTargets (t : ConfirmationTarget) : t ∈ confTargets := by
  cases t <;> decide

open ConfirmationTarget

/-! ### The cache -/

/-- The map behind `fee_cache`. It starts with all targets and nothing is ever removed, so that each
of them is there. -/
structure FeeCache where
  entries : AList fun _ : ConfirmationTarget => UInt32
  total : ∀ t, (entries.lookup t).isSome

namespace FeeCache

def new : FeeCache where
  entries := (confTargets.map fun t => (⟨t, getFallbackFee t⟩ : Sigma fun _ => UInt32)).toAList
  total t := by cases t <;> decide

def insert (c : FeeCache) (target : ConfirmationTarget) (rate : UInt32) : FeeCache where
  entries := c.entries.insert target rate
  total t := by
    by_cases h : t = target
    · rw [h, AList.lookup_insert]
      rfl
    · rw [AList.lookup_insert_ne h]
      exact c.total t

/-- `get_est_sat_per_1000_weight`. The `unwrap` finds a value. -/
def getEstSatPer1000Weight (c : FeeCache) (target : ConfirmationTarget) : UInt32 :=
  (c.entries.lookup target).get (c.total target)

variable (c : FeeCache) (t t' : ConfirmationTarget) (rate : UInt32)

@[simp] lemma get_new : new.getEstSatPer1000Weight t = getFallbackFee t := by
  cases t <;> rfl

lemma get_insert : (c.insert t rate).getEstSatPer1000Weight =
    Function.update c.getEstSatPer1000Weight t rate := by
  funext t'
  by_cases h : t' = t
  · subst h
    simp [getEstSatPer1000Weight, insert]
  · simp [getEstSatPer1000Weight, insert, h]

end FeeCache

/-! ### The rounds -/

/-- What `estimatesmartfee` comes to: the call fails, or there is a response. Its fee rate, when there
is one, is in sats per 1,000 weight, as the cast to `u32` leaves it. -/
inductive SmartFee where
  | callFailed (e : String)
  | response (feerate : Option UInt32)

def fetchFeeEstimate : SmartFee → Except String UInt32
  | .callFailed e => .error ("estimatesmartfee RPC call failed: " ++ e)
  | .response none => .error "Missing or invalid feerate in response"
  | .response (some satPer1000Weight) => .ok (max satPer1000Weight 253)

def saturatingAdd (a b : UInt32) : UInt32 :=
  if a.toNat + b.toNat < 2 ^ 32 then a + b else 4294967295

def storedRate (target : ConfirmationTarget) (rate : UInt32) : UInt32 :=
  if target = maximumFeeEstimate then saturatingAdd rate 2500 else rate

/-- One turn of the loop over the targets. -/
def updateFee (c : FeeCache) (target : ConfirmationTarget) (answer : SmartFee) : FeeCache :=
  match fetchFeeEstimate answer with
  | .ok rate => c.insert target (storedRate target rate)
  | .error _ => c

/-- The answers of a round. -/
abbrev Answers := ConfirmationTarget → SmartFee

def updateFees (c : FeeCache) (answers : Answers) : FeeCache :=
  confTargets.foldl (fun c target => updateFee c target (answers target)) c

/-- The turns of the loop, one by one: between any two of them the cache can be read. -/
def fetchStep (c : FeeCache) (a : ConfirmationTarget × SmartFee) : Option FeeCache :=
  some (updateFee c a.1 a.2)

def fetches (answers : Answers) : List (ConfirmationTarget × SmartFee) :=
  confTargets.map fun target => (target, answers target)

def roundStep (c : FeeCache) (answers : Answers) : Option FeeCache := some (updateFees c answers)

/-! ### The order -/

/-- The channel fee that a least allowed fee belongs to. -/
def channelFee : ConfirmationTarget → Option ConfirmationTarget
  | minAllowedAnchorChannelRemoteFee => some anchorChannelFee
  | minAllowedNonAnchorChannelRemoteFee => some nonAnchorChannelFee
  | _ => none

def AtMost (a b : ConfirmationTarget) : Prop := b = maximumFeeEstimate ∨ channelFee a = some b

/-- The maximum is the maximum, and what is allowed of others is at most what is paid. -/
structure Ordered (c : FeeCache) : Prop where
  maximum : ∀ t, c.getEstSatPer1000Weight t ≤ c.getEstSatPer1000Weight maximumFeeEstimate
  minAllowed : ∀ t fee, channelFee t = some fee →
    c.getEstSatPer1000Weight t ≤ c.getEstSatPer1000Weight fee

def HasFloor (c : FeeCache) : Prop := ∀ t, ∃ fee, c.entries.lookup t = some fee ∧ 253 ≤ fee

def fetched (target : ConfirmationTarget) (answer : SmartFee) : Option UInt32 :=
  match fetchFeeEstimate answer with
  | .ok rate => some (storedRate target rate)
  | .error _ => none

/-- The value of a target after its turn: what was fetched, or what was there. -/
def newFee (c : FeeCache) (answers : Answers) (t : ConfirmationTarget) : UInt32 :=
  (fetched t (answers t)).getD (c.getEstSatPer1000Weight t)

/-- The new maximum is at least what is stale and what is new, and a new least allowed fee is at most
the channel fee, stale and new. -/
structure RoundFits (c : FeeCache) (answers : Answers) : Prop where
  maximumStale : ∀ t, t ≠ maximumFeeEstimate →
    c.getEstSatPer1000Weight t ≤ newFee c answers maximumFeeEstimate
  maximumFresh : ∀ t, newFee c answers t ≤ newFee c answers maximumFeeEstimate
  minAllowedStale : ∀ t fee, channelFee t = some fee →
    newFee c answers t ≤ c.getEstSatPer1000Weight fee
  minAllowedFresh : ∀ t fee, channelFee t = some fee → newFee c answers t ≤ newFee c answers fee

/-! ### The cache as a state that is refreshed -/

def feeStore : Refreshed FeeCache ConfirmationTarget UInt32 SmartFee where
  read := FeeCache.getEstSatPer1000Weight
  write := FeeCache.insert
  accept := fetched
  read_write := FeeCache.get_insert

/-- The constraint on the fees of two targets. -/
def feeConstraint (a b : ConfirmationTarget) (x y : UInt32) : Prop := AtMost a b → x ≤ y

lemma fetchStep_eq : fetchStep = refreshStep feeStore := by
  funext c ⟨target, answer⟩
  rw [fetchStep, refreshStep, updateFee]
  simp only [feeStore, fetched]
  cases fetchFeeEstimate answer <;> rfl

lemma roundStep_eq : roundStep = sweepStep feeStore confTargets := by
  funext c answers
  rw [sweepStep, ← fetchStep_eq]
  rfl

lemma ordered_iff {c : FeeCache} : Ordered c ↔ Satisfies feeStore feeConstraint c := by
  constructor
  · rintro ⟨hmax, hmin⟩ a b (rfl | hfee)
    · exact hmax a
    · exact hmin a b hfee
  · intro h
    exact ⟨fun t => h t _ (Or.inl rfl), fun t fee hfee => h t fee (Or.inr hfee)⟩

lemma idxOf_maximum {t : ConfirmationTarget} (h : t ≠ maximumFeeEstimate) :
    confTargets.idxOf maximumFeeEstimate < confTargets.idxOf t := by
  cases t <;> first | exact absurd rfl h | decide

lemma idxOf_channelFee {t fee : ConfirmationTarget} (h : channelFee t = some fee) :
    confTargets.idxOf t < confTargets.idxOf fee := by
  cases t <;> cases h <;> decide

lemma roundFits_iff_sweepFits {c : FeeCache} {answers : Answers} :
    RoundFits c answers ↔ SweepFits feeStore feeConstraint confTargets c answers := by
  constructor
  · rintro ⟨hstale, hfresh, hminStale, hminFresh⟩
    refine ⟨?_, ?_, ?_⟩
    · rintro a b (rfl | hfee)
      · exact hfresh a
      · exact hminFresh a b hfee
    · rintro a b hlt (rfl | hfee)
      · have ha : a ≠ maximumFeeEstimate := fun ha => by rw [ha] at hlt; omega
        have := idxOf_maximum ha
        omega
      · exact hminStale a b hfee
    · rintro a b hlt (rfl | hfee)
      · exact hstale a fun ha => by rw [ha] at hlt; omega
      · have := idxOf_channelFee hfee
        omega
  · rintro ⟨hfresh, hleft, hright⟩
    refine ⟨fun t ht => ?_, fun t => ?_, fun t fee hfee => ?_, fun t fee hfee => ?_⟩
    · exact hright t _ (idxOf_maximum ht) (Or.inl rfl)
    · exact hfresh t _ (Or.inl rfl)
    · exact hleft t fee (idxOf_channelFee hfee) (Or.inr hfee)
    · exact hfresh t fee (Or.inr hfee)

/-! ### The least value -/

lemma le_saturatingAdd (a b : UInt32) : a ≤ saturatingAdd a b := by
  rw [UInt32.le_iff_toNat_le, saturatingAdd]
  have ha := a.toNat_lt
  split_ifs with h
  · rw [UInt32.toNat_add, Nat.mod_eq_of_lt h]
    omega
  · have hmax : (4294967295 : UInt32).toNat = 2 ^ 32 - 1 := rfl
    omega

lemma toNat_max (a b : UInt32) : (max a b).toNat = max a.toNat b.toNat := by
  rw [UInt32.max_def]
  split_ifs with h
  · exact (max_eq_right h).symm
  · exact (max_eq_left (Nat.le_of_lt (Nat.not_le.mp h))).symm

lemma le_storedRate (t : ConfirmationTarget) (rate : UInt32) : rate ≤ storedRate t rate := by
  rw [storedRate]
  split_ifs
  · exact le_saturatingAdd rate 2500
  · exact UInt32.le_refl rate

lemma floor_le_fetched {t : ConfirmationTarget} {answer : SmartFee} {rate : UInt32}
    (h : fetched t answer = some rate) : 253 ≤ rate := by
  rw [fetched] at h
  rcases answer with e | _ | satPer1000Weight
  · cases h
  · cases h
  · cases h
    refine UInt32.le_trans ?_ (le_storedRate t _)
    rw [UInt32.le_iff_toNat_le, toNat_max]
    exact le_max_right _ _

lemma hasFloor_iff {c : FeeCache} : HasFloor c ↔ ∀ t, 253 ≤ c.getEstSatPer1000Weight t := by
  refine forall_congr' fun t => ⟨?_, fun h => ⟨_, (Option.some_get (c.total t)).symm, h⟩⟩
  rintro ⟨fee, hlookup, hfee⟩
  rw [FeeCache.getEstSatPer1000Weight]
  simpa only [hlookup, Option.get_some] using hfee

/-- **No value is ever below 253**, whatever the answers. -/
theorem always_floor (fetches : List (ConfirmationTarget × SmartFee)) :
    Always fetchStep HasFloor FeeCache.new fetches := by
  refine always_of_keeps (hasFloor_iff.mpr fun t => ?_) ?_
  · rw [FeeCache.get_new]
    cases t <;> decide
  · rintro c ⟨target, answer⟩ c' hc hs
    rw [fetchStep_eq] at hs
    have hread : c'.getEstSatPer1000Weight = _ := read_refreshStep hs
    rw [hasFloor_iff] at hc ⊢
    intro t
    rw [hread, Function.update_apply]
    split_ifs
    · cases hf : feeStore.accept target answer with
      | none => exact hc target
      | some rate => exact floor_le_fetched hf
    · exact hc t

lemma ordered_new : Ordered FeeCache.new := by
  refine ⟨fun t => ?_, fun t fee hfee => ?_⟩
  · rw [FeeCache.get_new, FeeCache.get_new]
    cases t <;> decide
  · rw [FeeCache.get_new, FeeCache.get_new]
    cases t <;> cases hfee <;> decide

/-! ### Runs -/

/-- **When the fee estimates stay ordered.** For every sequence of rounds, with any answers: in every
state that a reader can see, after each single insert, the maximum is at least every other value, each
least allowed fee is at most its channel fee and every target has a value of 253 at least, if and only
if every round fits the cache it finds. -/
theorem always_ordered_iff (rounds : List Answers) :
    Always fetchStep (fun c => Ordered c ∧ HasFloor c) FeeCache.new (rounds.flatMap fetches) ↔
      StepsMeet roundStep RoundFits FeeCache.new rounds := by
  have hfits : RoundFits = SweepFits feeStore feeConstraint confTargets := by
    funext c answers
    exact propext roundFits_iff_sweepFits
  have hordered : Ordered = Satisfies feeStore feeConstraint := by
    funext c
    exact propext ordered_iff
  rw [always_and, and_iff_left (always_floor _), hordered, fetchStep_eq, roundStep_eq, hfits]
  exact always_sweeps_iff mem_confTargets (ordered_iff.mp ordered_new) rounds

/-! ### Rates that do not increase with the number of blocks -/

def SmartFee.rate : SmartFee → Option UInt32
  | .callFailed _ => none
  | .response feerate => feerate

/-- The rates of a round do not increase with the number of blocks. -/
def NonIncreasing (answers : Answers) : Prop := ∀ t t' rate rate',
  confirmationTargetToBlocks t ≤ confirmationTargetToBlocks t' →
  (answers t).rate = some rate → (answers t').rate = some rate' → rate' ≤ rate

lemma fetched_eq (t : ConfirmationTarget) (answer : SmartFee) :
    fetched t answer = answer.rate.map fun rate => storedRate t (max rate 253) := by
  rcases answer with e | _ | rate <;> rfl

section NonIncreasing

variable {c : FeeCache} {answers : Answers} {t t' : ConfirmationTarget} {rate rate' : UInt32}

lemma newFee_of_rate (h : (answers t).rate = some rate) :
    newFee c answers t = storedRate t (max rate 253) := by
  rw [newFee, fetched_eq, h]
  rfl

lemma newFee_of_none (h : (answers t).rate = none) :
    newFee c answers t = c.getEstSatPer1000Weight t := by
  rw [newFee, fetched_eq, h]
  rfl

/-- Of two targets that were fetched, the one with more blocks is not above the other, if it is not the
maximum. -/
lemma newFee_le (h : NonIncreasing answers)
    (hblocks : confirmationTargetToBlocks t ≤ confirmationTargetToBlocks t')
    (ht : (answers t).rate = some rate) (ht' : (answers t').rate = some rate')
    (hmax : t' ≠ maximumFeeEstimate) : newFee c answers t' ≤ newFee c answers t := by
  have hle := h t t' rate rate' hblocks ht ht'
  rw [newFee_of_rate ht, newFee_of_rate ht']
  have hstored : storedRate t' (max rate' 253) = max rate' 253 := if_neg hmax
  rw [hstored]
  refine UInt32.le_trans ?_ (le_storedRate t _)
  rw [UInt32.le_iff_toNat_le] at hle ⊢
  rw [toNat_max, toNat_max]
  omega

lemma channelFee_blocks {fee : ConfirmationTarget} (h : channelFee t = some fee) :
    confirmationTargetToBlocks fee ≤ confirmationTargetToBlocks t ∧ t ≠ maximumFeeEstimate := by
  cases t <;> cases h <;> decide

/-- What fits, when the rates do not increase with the number of blocks: a maximum that was fetched is at
least what is stale, one that was not is at least what was fetched, a new least allowed fee is at most the
stale channel fee, and a stale one at most the new channel fee. -/
theorem roundFits_iff (hc : Ordered c) (h : NonIncreasing answers) :
    RoundFits c answers ↔
      ((answers maximumFeeEstimate).rate.isSome → ∀ t, t ≠ maximumFeeEstimate →
        c.getEstSatPer1000Weight t ≤ newFee c answers maximumFeeEstimate) ∧
      ((answers maximumFeeEstimate).rate = none → ∀ t,
        newFee c answers t ≤ c.getEstSatPer1000Weight maximumFeeEstimate) ∧
      ∀ t fee, channelFee t = some fee →
        ((answers t).rate.isSome → newFee c answers t ≤ c.getEstSatPer1000Weight fee) ∧
        ((answers t).rate = none → c.getEstSatPer1000Weight t ≤ newFee c answers fee) := by
  constructor
  · rintro ⟨hstale, hfresh, hminStale, hminFresh⟩
    refine ⟨fun _ => hstale, fun hnone t => ?_, fun t fee hfee => ⟨fun _ => hminStale t fee hfee, ?_⟩⟩
    · have := hfresh t
      rwa [newFee_of_none hnone] at this
    · intro hnone
      have := hminFresh t fee hfee
      rwa [newFee_of_none hnone] at this
  · rintro ⟨hsome, hnone, hmin⟩
    -- the maximum was fetched or not, and so was the target at hand
    refine ⟨fun t ht => ?_, fun t => ?_, fun t fee hfee => ?_, fun t fee hfee => ?_⟩
    · cases hm : (answers maximumFeeEstimate).rate with
      | none =>
        rw [newFee_of_none hm]
        exact hc.maximum t
      | some r => exact hsome (by rw [hm]; rfl) t ht
    · cases hm : (answers maximumFeeEstimate).rate with
      | none =>
        rw [newFee_of_none hm]
        exact hnone hm t
      | some r =>
        by_cases ht : t = maximumFeeEstimate
        · rw [ht]
          exact UInt32.le_refl _
        · cases hr : (answers t).rate with
          | none =>
            rw [newFee_of_none hr]
            exact hsome (by rw [hm]; rfl) t ht
          | some r' => exact newFee_le h (by cases t <;> decide) hm hr ht
    · cases hr : (answers t).rate with
      | none =>
        rw [newFee_of_none hr]
        exact hc.minAllowed t fee hfee
      | some r => exact (hmin t fee hfee).1 (by rw [hr]; rfl)
    · cases hr : (answers t).rate with
      | none =>
        rw [newFee_of_none hr]
        exact (hmin t fee hfee).2 hr
      | some r =>
        cases hf : (answers fee).rate with
        | none =>
          rw [newFee_of_none hf]
          exact (hmin t fee hfee).1 (by rw [hr]; rfl)
        | some r' =>
          obtain ⟨hblocks, ht⟩ := channelFee_blocks hfee
          exact newFee_le h hblocks hf hr ht

/-- **When a round keeps the order throughout**, if the rates do not increase with the number of blocks:
the estimates are ordered after each of the eight calls exactly when what is fetched fits what is stale. -/
theorem always_ordered_round_iff (hc : Ordered c) (h : NonIncreasing answers) :
    Always fetchStep Ordered c (fetches answers) ↔
      ((answers maximumFeeEstimate).rate.isSome → ∀ t, t ≠ maximumFeeEstimate →
        c.getEstSatPer1000Weight t ≤ newFee c answers maximumFeeEstimate) ∧
      ((answers maximumFeeEstimate).rate = none → ∀ t,
        newFee c answers t ≤ c.getEstSatPer1000Weight maximumFeeEstimate) ∧
      ∀ t fee, channelFee t = some fee →
        ((answers t).rate.isSome → newFee c answers t ≤ c.getEstSatPer1000Weight fee) ∧
        ((answers t).rate = none → c.getEstSatPer1000Weight t ≤ newFee c answers fee) := by
  have hordered : Ordered = Satisfies feeStore feeConstraint := by
    funext c
    exact propext ordered_iff
  rw [← roundFits_iff hc h, roundFits_iff_sweepFits, hordered, fetchStep_eq]
  exact always_sweep_iff mem_confTargets (ordered_iff.mp hc)

end NonIncreasing

/-! ### A quiet mempool, and a call that fails -/

def flat (rate : UInt32) : Answers := fun _ => .response (some rate)

lemma nonIncreasing_flat (rate : UInt32) : NonIncreasing (flat rate) := by
  rintro t t' r r' - ⟨⟩ ⟨⟩
  exact UInt32.le_refl _

/-- In a quiet mempool the first round after a start breaks the order: the fallbacks are above the
maximum. -/
theorem always_ordered_round_iff_flat : ¬ Always fetchStep Ordered FeeCache.new (fetches (flat 300)) := by
  rw [always_ordered_round_iff ordered_new (nonIncreasing_flat 300)]
  rintro ⟨hstale, -⟩
  exact absurd (hstale rfl urgentOnChainSweep (by decide)) (by decide)

def firstFails (rate : UInt32) : Answers := fun
  | .maximumFeeEstimate => .callFailed "timeout"
  | _ => .response (some rate)

/-- **The first insert of a quiet round leaves the maximum below the fallbacks, and a first call that
fails leaves it below all others**, until the next round. -/
theorem not_always_ordered_flat :
    NonIncreasing (flat 300) ∧ NonIncreasing (firstFails 20000) ∧
    ¬ Always fetchStep (fun c => Ordered c ∧ HasFloor c) FeeCache.new ([flat 300].flatMap fetches) ∧
    ¬ Ordered (updateFees FeeCache.new (firstFails 20000)) := by
  refine ⟨?_, ?_, fun h => ?_, fun h => ?_⟩
  · rintro t t' rate rate' - ⟨⟩ ⟨⟩
    exact UInt32.le_refl _
  · rintro t t' rate rate' - ht ht'
    cases t <;> cases t' <;> cases ht <;> cases ht' <;> exact UInt32.le_refl _
  · have hfirst := (h.2 _ rfl).head.1.maximum urgentOnChainSweep
    exact absurd hfirst (by decide)
  · exact absurd (h.maximum urgentOnChainSweep) (by decide)

end LnNode.BitcoindClient.FeeEstimates
