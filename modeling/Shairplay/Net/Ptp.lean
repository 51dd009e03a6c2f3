import Shairplay.Lib.Serial

/-!
# Playout times of the PTP clock

An anchor fixes the network time of one RTP timestamp. The playout time of any other timestamp
follows from its distance to the anchor and the sample rate, and is turned into local time by
the offset of the clock.

The source widens the 32-bit difference of two timestamps without its sign. A frame before the
anchor is therefore taken for one that comes almost a whole turn of the timestamps after it.
-/

namespace Shairplay.Net

open Lib Serial

/-- An RTP timestamp with its network time. -/
structure PtpAnchor where
  clockId : BitVec 64
  anchorRtp : BitVec 32
  anchorNetworkTimeNs : BitVec 64
  sampleRate : BitVec 32
  deriving DecidableEq

namespace PtpAnchor

def u64Max : Nat := 0xffffffffffffffff

def u128Max : Nat := 0xffffffffffffffffffffffffffffffff

/-- The network time is given in seconds and a binary fraction of a second. -/
def new (clockId : BitVec 64) (rtpTime : BitVec 32) (networkSecs networkFrac : BitVec 64)
    (sampleRate : BitVec 32) : PtpAnchor :=
  let fracNs := (networkFrac.toNat * 1000000000) >>> 64
  let secsNs := min (networkSecs.toNat * 1000000000) u128Max
  let networkTimeNs := min (min (secsNs + fracNs) u128Max) u64Max
  { clockId, anchorRtp := rtpTime
    anchorNetworkTimeNs := BitVec.ofNat 64 networkTimeNs
    sampleRate }

/-- The local time at which a frame is to be played, in `u64` and `i64` arithmetic. -/
def localPlayoutTime (a : PtpAnchor) (rtpTimestamp : BitVec 32) (ptpOffset : BitVec 64) :
    BitVec 64 :=
  if a.sampleRate = 0 then a.anchorNetworkTimeNs - ptpOffset
  else
    let frameDiff := (rtpTimestamp - a.anchorRtp).setWidth 64
    let timeDiffNs := (frameDiff * 1000000000).sdiv (a.sampleRate.setWidth 64)
    let masterPlayout := a.anchorNetworkTimeNs + timeDiffNs
    masterPlayout - ptpOffset

/-- The nanoseconds that are left at a time `now`, in the range of `i64`. -/
def delayUntilPlayout (a : PtpAnchor) (rtpTimestamp : BitVec 32) (ptpOffset now : BitVec 64) :
    Int :=
  let target := a.localPlayoutTime rtpTimestamp ptpOffset
  max (-0x8000000000000000) (min 0x7fffffffffffffff (target.toNat - now.toNat))

/-- The signed distance of a timestamp from the anchor. -/
def distance (a : PtpAnchor) (rtpTimestamp : BitVec 32) : Int := (rtpTimestamp - a.anchorRtp).toInt

/-- The network time of a timestamp, before and after the anchor. -/
def networkTime (a : PtpAnchor) (rtpTimestamp : BitVec 32) : Int :=
  a.anchorNetworkTimeNs.toNat + a.distance rtpTimestamp * 1000000000 / a.sampleRate.toNat

/-- The network time with the distance that the source uses. -/
def forwardTime (a : PtpAnchor) (rtpTimestamp : BitVec 32) : Int :=
  a.anchorNetworkTimeNs.toNat + dist rtpTimestamp a.anchorRtp * 1000000000 / a.sampleRate.toNat

variable {a : PtpAnchor} {t : BitVec 32}

/-- The distance of the source is a turn too long for a timestamp before the anchor. -/
theorem dist_eq (a : PtpAnchor) (t : BitVec 32) :
    (dist t a.anchorRtp : Int) =
      if 0 ≤ a.distance t then a.distance t else a.distance t + 4294967296 := by
  have bound := dist_lt t a.anchorRtp
  simp only [distance, BitVec.toInt_eq_toNat_cond, Serial.dist] at *
  split <;> split <;> omega

theorem toNat_timeDiffNs (frames rate : BitVec 32) :
    (((frames.setWidth 64 * 1000000000).sdiv (rate.setWidth 64) : BitVec 64)).toNat =
      frames.toNat * 1000000000 / rate.toNat := by
  have framesLt := frames.isLt
  have rateLt := rate.isLt
  have billion : (1000000000 : BitVec 64).toNat = 1000000000 := rfl
  have wide : (frames.setWidth 64 * 1000000000 : BitVec 64).toNat = frames.toNat * 1000000000 := by
    rw [BitVec.toNat_mul, BitVec.toNat_setWidth, billion]
    omega
  have rateWide : (rate.setWidth 64).toNat = rate.toNat := by
    rw [BitVec.toNat_setWidth]
    omega
  have positive : (frames.setWidth 64 * 1000000000 : BitVec 64).msb = false := by
    rw [BitVec.msb_eq_false_iff_two_mul_lt, wide]
    omega
  have ratePositive : (rate.setWidth 64).msb = false := by
    rw [BitVec.msb_eq_false_iff_two_mul_lt, rateWide]
    omega
  rw [BitVec.sdiv_eq, positive, ratePositive]
  change (_ / _ : BitVec 64).toNat = _
  rw [BitVec.toNat_udiv, wide, rateWide]

theorem localPlayoutTime_eq (rate : 0 < a.sampleRate.toNat) (t : BitVec 32) (offset : BitVec 64) :
    a.localPlayoutTime t offset = BitVec.ofInt 64 (a.forwardTime t - offset.toNat) := by
  have nonzero : a.sampleRate ≠ 0 := by
    rintro zero
    simp [zero] at rate
  have elapsed : ((t - a.anchorRtp).setWidth 64 * 1000000000 : BitVec 64).sdiv
      (a.sampleRate.setWidth 64) =
        BitVec.ofNat 64 (dist t a.anchorRtp * 1000000000 / a.sampleRate.toNat) := by
    apply BitVec.eq_of_toNat_eq
    rw [toNat_timeDiffNs, BitVec.toNat_ofNat, Nat.mod_eq_of_lt]
    · rfl
    · have bound := dist_lt t a.anchorRtp
      have quotient := Nat.div_le_self (dist t a.anchorRtp * 1000000000) a.sampleRate.toNat
      omega
  have time : a.forwardTime t = ((a.anchorNetworkTimeNs.toNat +
      dist t a.anchorRtp * 1000000000 / a.sampleRate.toNat : Nat) : Int) := by
    simp [forwardTime]
  rw [localPlayoutTime, if_neg nonzero, time, ofInt_sub, BitVec.ofInt_natCast, BitVec.ofInt_natCast]
  dsimp only
  rw [elapsed, BitVec.ofNat_add, BitVec.ofNat_toNat, BitVec.ofNat_toNat, BitVec.setWidth_eq,
    BitVec.setWidth_eq]

theorem forwardTime_of_nonneg (after : 0 ≤ a.distance t) : a.forwardTime t = a.networkTime t := by
  rw [forwardTime, dist_eq, if_pos after, networkTime]

/-- A frame before the anchor is put between the anchor and a turn behind its time. -/
theorem forwardTime_of_neg (rate : 0 < a.sampleRate.toNat) (before : a.distance t < 0) :
    a.networkTime t < a.forwardTime t ∧
      a.forwardTime t - a.networkTime t ≤ 4294967296 * 1000000000 := by
  have rateInt : (0 : Int) < a.sampleRate.toNat := Int.natCast_pos.mpr rate
  have lowest : -2147483648 ≤ a.distance t := BitVec.le_toInt (t - a.anchorRtp)
  have early : a.distance t * 1000000000 / a.sampleRate.toNat < 0 :=
    Int.ediv_neg_of_neg_of_pos (by omega) rateInt
  have late : 0 ≤ (a.distance t + 4294967296) * 1000000000 / a.sampleRate.toNat :=
    Int.ediv_nonneg (by omega) (by omega)
  have earliest : a.distance t * 1000000000 ≤ a.distance t * 1000000000 / a.sampleRate.toNat := by
    rw [Int.le_ediv_iff_mul_le rateInt]
    calc a.distance t * 1000000000 * a.sampleRate.toNat
        ≤ a.distance t * 1000000000 * 1 := Int.mul_le_mul_of_nonpos_left (by omega) (by omega)
      _ = a.distance t * 1000000000 := Int.mul_one _
  have latest : (a.distance t + 4294967296) * 1000000000 / a.sampleRate.toNat ≤
      (a.distance t + 4294967296) * 1000000000 :=
    Int.ediv_le_self _ (by omega)
  rw [forwardTime, dist_eq, if_neg (by omega), networkTime]
  constructor
  · omega
  · omega

theorem networkTime_mono {s t : BitVec 32} (rate : 0 < a.sampleRate.toNat)
    (order : a.distance s ≤ a.distance t) : a.networkTime s ≤ a.networkTime t := by
  have scaled : a.distance s * 1000000000 ≤ a.distance t * 1000000000 := by omega
  have quotient := Int.ediv_le_ediv (Int.natCast_pos.mpr rate) scaled
  exact Int.add_le_add_left quotient _

/-- With the anchor in the lower half of `i64`, no time behind it leaves that range. -/
theorem networkTime_lt (small : a.anchorNetworkTimeNs.toNat < 2 ^ 62) (after : 0 ≤ a.distance t) :
    a.networkTime t < 2 ^ 63 := by
  have furthest : a.distance t < 2147483648 := BitVec.toInt_lt
  have bound : a.distance t * 1000000000 / a.sampleRate.toNat ≤ a.distance t * 1000000000 :=
    Int.ediv_le_self _ (by omega)
  rw [networkTime]
  omega

/-- The delay of a frame behind the anchor is exact, also when it is negative. -/
theorem delayUntilPlayout_eq (rate : 0 < a.sampleRate.toNat)
    (small : a.anchorNetworkTimeNs.toNat < 2 ^ 62) (after : 0 ≤ a.distance t)
    {offset now : BitVec 64} (begun : (offset.toNat : Int) ≤ a.networkTime t)
    (clock : now.toNat < 2 ^ 63) :
    a.delayUntilPlayout t offset now = a.networkTime t - offset.toNat - now.toNat := by
  have bound := networkTime_lt small after
  have target : ((a.localPlayoutTime t offset).toNat : Int) = a.networkTime t - offset.toNat := by
    rw [localPlayoutTime_eq rate, forwardTime_of_nonneg after, BitVec.toNat_ofInt]
    omega
  simp only [delayUntilPlayout, target]
  omega

/-- Playout times that are signed around the anchor, for two timestamps in serial order. Local
times are compared as the timestamps are, by the sign of their wrapped difference. -/
structure SignedAround (a : PtpAnchor) (offset : BitVec 64) (earlier later : BitVec 32) :
    Prop where
  earlierTime : a.localPlayoutTime earlier offset =
    BitVec.ofInt 64 (a.networkTime earlier - offset.toNat)
  laterTime : a.localPlayoutTime later offset = BitVec.ofInt 64 (a.networkTime later - offset.toNat)
  beforeAnchor : a.distance earlier < 0 →
    (a.localPlayoutTime earlier offset - a.localPlayoutTime a.anchorRtp offset).toInt < 0
  inOrder : 0 ≤ (a.localPlayoutTime later offset - a.localPlayoutTime earlier offset).toInt

/-- For every anchor, clock offset and pair of timestamps in serial order, the playout times are
signed around the anchor if and only if no frame before the anchor is asked for. -/
theorem signedAround_iff (a : PtpAnchor) (offset : BitVec 64) (earlier later : BitVec 32)
    (rate : 0 < a.sampleRate.toNat) (small : a.anchorNetworkTimeNs.toNat < 2 ^ 62)
    (order : a.distance earlier ≤ a.distance later) (started : 0 ≤ a.networkTime earlier) :
    a.SignedAround offset earlier later ↔ 0 ≤ a.distance earlier := by
  constructor
  · intro signed
    by_contra before
    obtain ⟨behind, turn⟩ := forwardTime_of_neg rate (not_le.mp before)
    have same := signed.earlierTime
    rw [localPlayoutTime_eq rate] at same
    exact ofInt_ne_of_lt (by omega) (by omega) same.symm
  · intro after
    have times (t : BitVec 32) (behind : 0 ≤ a.distance t) : a.localPlayoutTime t offset =
        BitVec.ofInt 64 (a.networkTime t - offset.toNat) := by
      rw [localPlayoutTime_eq rate, forwardTime_of_nonneg behind]
    have earlierTime := times earlier after
    have laterTime := times later (after.trans order)
    refine ⟨earlierTime, laterTime, fun before => absurd after (not_le.mpr before), ?_⟩
    have ordered := networkTime_mono rate order
    have bound := networkTime_lt small (after.trans order)
    rw [earlierTime, laterTime, toInt_ofInt_sub_ofInt (by decide) (by omega) (by omega)]
    omega

/-- One and two seconds behind an anchor at ten seconds, with a clock half a second ahead. -/
theorem signedAround_behind_anchor :
    (new 1 0 10 0 48000).SignedAround 500000000 48000 96000 ∧
      (new 1 0 10 0 48000).localPlayoutTime 48000 500000000 = 10500000000 :=
  ⟨(signedAround_iff (new 1 0 10 0 48000) 500000000 48000 96000 (by decide) (by decide) (by decide)
    (by decide)).mpr (by decide), by decide⟩

/-- The frame right before the anchor is to be played 22676 ns before it. It is put 27 hours
behind it, and behind every frame of the second that follows the anchor. -/
theorem frame_before_anchor_is_late :
    (new 1 1000 5 0 44100).distance 999 = -1 ∧ 0 ≤ (new 1 1000 5 0 44100).networkTime 999 ∧
      (new 1 1000 5 0 44100).networkTime 999 - 100 = 4999977224 ∧
      (new 1 1000 5 0 44100).localPlayoutTime 999 100 = 97396548639355 ∧
      ((new 1 1000 5 0 44100).localPlayoutTime 45100 100 -
        (new 1 1000 5 0 44100).localPlayoutTime 999 100).toInt < 0 ∧
      ¬ (new 1 1000 5 0 44100).SignedAround 100 999 45100 := by
  refine ⟨by decide, by decide, by decide, by decide, by decide, ?_⟩
  intro signed
  exact absurd signed.earlierTime (by decide)

end PtpAnchor

end Shairplay.Net
