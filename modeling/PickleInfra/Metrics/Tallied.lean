import PickleInfra.Metrics.Sound
import PickleInfra.Statistics.Cells

/-!
# `Metrics.Tallied` — `_histogram` accepts what is the histogram of some values

The cumulative counts of a histogram say how many values are in each closed bucket, and its total is their
sum up to rounding. `_histogram` computes the least and the greatest sum in one loop over the buckets; the
cells of the buckets (`cells`) have just these sums (`foldl_closed`), so the check is the criterion for
grouped data (`histogram_iff`). What counts and adds up values passes it (`Tallies.accepted`), and so does
the difference of two such histograms, which is the histogram of the values between (`Tallies.sub`).
-/

namespace PickleInfra
namespace Metrics

open Python Statistics

/-! ## Numbers within the limits -/

/-- A number no greater than the greatest safe integer. -/
structure Num.Safe (x : Num) : Prop where
  nonneg : 0 ≤ x.value
  le : x.value ≤ maxSafeCount

/-- A count within the limits. -/
structure Num.SafeCount (x : Num) : Prop extends Num.Safe x where
  integer : isInteger x.value = true

theorem maxSafeCount_le : maxSafeCount ≤ maxNumber := by
  unfold maxSafeCount maxNumber
  calc (2 : ℚ) ^ 53 - 1 ≤ 2 ^ 53 := sub_le_self _ zero_le_one
    _ ≤ 10 ^ 53 := pow_le_pow_left₀ (by norm_num) (by norm_num) 53
    _ ≤ 10 ^ 300 := pow_le_pow_right₀ (by norm_num) (by norm_num)

theorem Num.Safe.tooLong {x : Num} (h : x.Safe) : tooLong x = false := by
  cases x with
  | float q => rfl
  | int n =>
      have hpos : (0 : ℤ) ≤ n := Int.cast_nonneg_iff.mp h.nonneg
      have hle : (n : ℚ) ≤ ((2 ^ 53 - 1 : ℤ) : ℚ) := h.le.trans (by unfold maxSafeCount; norm_num)
      have hle : n ≤ 2 ^ 53 - 1 := by exact_mod_cast hle
      show (decide (10 ^ 128 ≤ n) || decide (n ≤ -(10 ^ 127))) = false
      rw [Bool.or_eq_false_iff, decide_eq_false_iff_not, decide_eq_false_iff_not]
      omega

/-- Within the limits a number is accepted as it is. -/
theorem numberOf_safe {x : Num} {count : Bool} (h : x.Safe)
    (hcount : count = true → isInteger x.value = true) :
    numberOf .exact count maxNumber x = .ok (keptNumber .exact x.value) := by
  have hchecked : checkDecimal .exact count maxNumber (decimalOf .exact x) = .ok () := by
    rw [checkDecimal_eq_ok, decimalOf_exact]
    exact ⟨⟨h.nonneg, h.le.trans maxSafeCount_le⟩, fun _ => h.le, hcount, fun hne => hne⟩
  unfold numberOf numberOfDecimal
  rw [h.tooLong, hchecked, decimalOf_exact]
  rfl

theorem Num.SafeCount.exists_nat {x : Num} (h : x.SafeCount) : ∃ n : ℕ, x.value = n := by
  obtain ⟨n, hn⟩ := isInteger_iff.mp h.integer
  have hpos : (0 : ℤ) ≤ n := by
    have := h.nonneg
    rw [hn] at this
    exact_mod_cast this
  exact ⟨n.toNat, by rw [hn, ← Int.cast_natCast, Int.toNat_of_nonneg hpos]⟩

theorem Num.SafeCount.sub_nat {x : Num} (h : x.SafeCount) {previous : ℚ} (hprevious : ∃ n : ℕ, previous = n)
    (hle : previous ≤ x.value) : ∃ n : ℕ, x.value - previous = n := by
  obtain ⟨n, hn⟩ := h.exists_nat
  obtain ⟨m, rfl⟩ := hprevious
  rw [hn] at hle ⊢
  exact ⟨n - m, by rw [Nat.cast_sub (by exact_mod_cast hle)]⟩

theorem safeCount_of_nat {x : Num} {n : ℕ} (hx : x.value = n) (hle : (n : ℚ) ≤ maxSafeCount) : x.SafeCount :=
  ⟨⟨by rw [hx]; exact Nat.cast_nonneg n, by rw [hx]; exact hle⟩,
    isInteger_iff.mpr ⟨n, by rw [hx, Int.cast_natCast]⟩⟩

/-! ## The cells of the buckets -/

/-- Numbers closed by `'+Inf'`. -/
def closed (xs : List Num) : List Bound := xs.map .num ++ [.inf]

/-- The finite bounds: strictly increasing, and within the limits. -/
structure Increasing (xs : List Num) : Prop where
  sorted : (xs.map Num.value).Pairwise (· < ·)
  safe : ∀ x ∈ xs, x.Safe

/-- The closed bucket of every bound, with the number of values the cumulative counts leave for it. -/
def cells : ℚ → ℚ → List (Bound × Num) → List (Cell ℚ)
  | _, _, [] => []
  | previousBound, previousCount, (bound, cumulative) :: rest =>
    { lo := previousBound, hi := bound.value, number := cumulative.value - previousCount } ::
      cells (bound.value.getD previousBound) cumulative.value rest

def bucketCells (bounds : List Bound) (counts : List Num) : List (Cell ℚ) := cells 0 0 (bounds.zip counts)

/-- The tolerance for the rounding of the total. -/
def tolerance (buckets : List (Cell ℚ)) (total : ℚ) : ℚ :=
  1 / 10 ^ 9 * max 1 (max (lowerSum buckets) (max (upperSum buckets) total))

theorem Increasing.tail {x : Num} {xs : List Num} (h : Increasing (x :: xs)) : Increasing xs :=
  ⟨(List.pairwise_cons.mp h.sorted).2, fun y hy => h.safe y (List.mem_cons_of_mem _ hy)⟩

theorem Increasing.head_lt {x : Num} {xs : List Num} (h : Increasing (x :: xs)) :
    ∀ y ∈ xs, x.value < y.value :=
  fun y hy => (List.pairwise_cons.mp h.sorted).1 y.value (List.mem_map_of_mem hy)

@[simp] theorem closed_cons (x : Num) (xs : List Num) : closed (x :: xs) = .num x :: closed xs := rfl

@[simp] theorem closed_length (xs : List Num) : (closed xs).length = xs.length + 1 := by
  unfold closed
  rw [List.length_append, List.length_map, List.length_singleton]

@[simp] theorem closed_getLast? (xs : List Num) : (closed xs).getLast? = some .inf := by
  unfold closed
  rw [List.getLast?_append, List.getLast?_singleton]
  rfl

theorem closed_zip_isEmpty {xs counts : List Num} (h : counts.length = xs.length + 1) :
    ((closed xs).zip counts).isEmpty = false := by
  rw [List.isEmpty_eq_false_iff, ← List.length_pos_iff, List.length_zip, closed_length, h]
  omega

section Loops

theorem checkBound_num {x : Num} (hx : x.Safe) {lastBound y : ℚ} {closing : Bool} :
    checkBound .exact lastBound closing (.num x) = .ok y ↔ lastBound < x.value ∧ x.value = y := by
  unfold checkBound
  dsimp only
  rw [numberOf_safe hx (fun h => by cases h)]
  simp only [bind_eq_ok, failIf_eq_ok, Except.ok.injEq, exists_eq_left', exists_const, keptNumber_exact,
    decide_eq_false_iff_not, not_le]

theorem checkBound_inf {lastBound y : ℚ} {closing : Bool} :
    checkBound .exact lastBound closing .inf = .ok y ↔ closing = true ∧ lastBound = y := by
  unfold checkBound
  simp only [bind_eq_ok, failIf_eq_ok, Except.ok.injEq, exists_const, Bool.not_eq_false']

theorem checkBuckets_cons {bound : Bound} {c : Num} {rest : List (Bound × Num)} (hc : c.SafeCount)
    {lastBound lastCount : ℚ} :
    checkBuckets .exact lastBound lastCount ((bound, c) :: rest) = .ok () ↔
      lastCount ≤ c.value ∧ ∃ b, checkBound .exact lastBound rest.isEmpty bound = .ok b ∧
        checkBuckets .exact b c.value rest = .ok () := by
  conv_lhs => unfold checkBuckets
  rw [numberOf_safe hc.toSafe (fun _ => hc.integer)]
  simp only [bind_eq_ok, failIf_eq_ok, Except.ok.injEq, exists_eq_left', exists_const, keptNumber_exact,
    decide_eq_false_iff_not, not_lt]
  constructor
  · rintro ⟨b, hb, hle, hrest⟩
    exact ⟨hle, b, hb, hrest⟩
  · rintro ⟨hle, b, hb, hrest⟩
    exact ⟨b, hb, hle, hrest⟩

/-- The first loop passes exactly if the counts do not decrease. -/
theorem checkBuckets_closed {xs counts : List Num} {lastBound lastCount : ℚ} (hxs : Increasing xs)
    (hlast : ∀ x ∈ xs, lastBound < x.value) (hcounts : ∀ c ∈ counts, c.SafeCount)
    (hlength : counts.length = xs.length + 1) :
    checkBuckets .exact lastBound lastCount ((closed xs).zip counts) = .ok () ↔
      (lastCount :: counts.map Num.value).IsChain (· ≤ ·) := by
  induction xs generalizing counts lastBound lastCount with
  | nil =>
      obtain ⟨c, rfl⟩ := List.length_eq_one_iff.mp hlength
      have hc := hcounts c (List.mem_singleton_self c)
      rw [List.map_singleton, List.isChain_cons_cons]
      refine (checkBuckets_cons hc).trans (and_congr_right fun _ => ?_)
      simp [checkBound_inf, checkBuckets]
  | cons x xs ih =>
      cases counts with
      | nil => cases hlength
      | cons c counts =>
          have hc := hcounts c (List.mem_cons_self ..)
          have hx := hxs.safe x (List.mem_cons_self ..)
          have hrest := @ih counts x.value c.value hxs.tail hxs.head_lt
            (fun c hc => hcounts c (List.mem_cons_of_mem _ hc)) (Nat.succ.inj hlength)
          rw [List.map_cons, List.isChain_cons_cons, ← hrest]
          refine (checkBuckets_cons hc).trans (and_congr_right fun _ => ?_)
          constructor
          · rintro ⟨b, hb, htail⟩
            obtain ⟨-, rfl⟩ := (checkBound_num hx).mp hb
            exact htail
          · intro htail
            exact ⟨x.value, (checkBound_num hx).mpr ⟨hlast x (List.mem_cons_self ..), rfl⟩, htail⟩

/-- The second loop adds up the sums of the cells. -/
theorem foldl_closed {xs counts : List Num} (hlength : counts.length = xs.length + 1) {f : Feasible}
    (hf : f.unbounded = false) :
    let r := ((closed xs).zip counts).foldl Feasible.next f
    let buckets := cells f.previousBound f.previousCount ((closed xs).zip counts)
    r.lower = f.lower + lowerSum buckets ∧ r.upper = f.upper + upperSum buckets ∧
      (r.unbounded = true ↔ Unbounded buckets) := by
  induction xs generalizing counts f with
  | nil =>
      obtain ⟨c, rfl⟩ := List.length_eq_one_iff.mp hlength
      simp [closed, cells, Feasible.next, Unbounded, lowerSum, upperSum, Bound.value]
  | cons x xs ih =>
      cases counts with
      | nil => cases hlength
      | cons c counts =>
          obtain ⟨hlower, hupper, hunbounded⟩ := @ih counts (Nat.succ.inj hlength) (f.next (.num x, c)) hf
          have hcells : cells f.previousBound f.previousCount ((closed (x :: xs)).zip (c :: counts)) =
              { lo := f.previousBound, hi := some x.value, number := c.value - f.previousCount } ::
                cells x.value c.value ((closed xs).zip counts) := rfl
          dsimp only
          rw [hcells, lowerSum_cons, upperSum_cons, ← add_assoc, ← add_assoc]
          refine ⟨hlower, hupper, hunbounded.trans ?_⟩
          simp [Unbounded, Feasible.next]

/-- The cells of increasing bounds and counts that do not decrease. -/
theorem cells_proper {xs counts : List Num} {previousBound previousCount : ℚ} (hxs : Increasing xs)
    (hlast : ∀ x ∈ xs, previousBound ≤ x.value) (hcounts : ∀ c ∈ counts, c.SafeCount)
    (hprevious : ∃ n : ℕ, previousCount = n)
    (hchain : (previousCount :: counts.map Num.value).IsChain (· ≤ ·)) :
    ∀ c ∈ cells previousBound previousCount ((closed xs).zip counts), c.Proper := by
  induction xs generalizing counts previousBound previousCount with
  | nil =>
      cases counts with
      | nil => intro c hc; cases hc
      | cons c counts =>
          intro cell hcell
          obtain rfl : cell = { lo := previousBound, hi := none, number := c.value - previousCount } := by
            simpa [closed, cells, Bound.value] using hcell
          refine ⟨(fun b hb => by cases hb), (hcounts c (List.mem_cons_self ..)).sub_nat hprevious ?_⟩
          rw [List.map_cons, List.isChain_cons_cons] at hchain
          exact hchain.1
  | cons x xs ih =>
      cases counts with
      | nil => intro c hc; cases hc
      | cons c counts =>
          have hc := hcounts c (List.mem_cons_self ..)
          rw [List.map_cons, List.isChain_cons_cons] at hchain
          intro cell hcell
          rcases List.mem_cons.mp hcell with rfl | hcell
          · refine ⟨fun b hb => ?_, hc.sub_nat hprevious hchain.1⟩
            obtain rfl := Option.some.inj hb
            exact hlast x (List.mem_cons_self ..)
          · exact ih hxs.tail (fun y hy => (hxs.head_lt y hy).le)
              (fun c hc => hcounts c (List.mem_cons_of_mem _ hc)) hc.exists_nat hchain.2 cell hcell

theorem cells_lower {xs counts : List Num} {previousBound previousCount : ℚ} (hxs : Increasing xs)
    (hlast : ∀ x ∈ xs, previousBound ≤ x.value) :
    ∀ c ∈ cells previousBound previousCount ((closed xs).zip counts), previousBound ≤ c.lo := by
  induction xs generalizing counts previousBound previousCount with
  | nil =>
      cases counts with
      | nil => intro c hc; cases hc
      | cons c counts =>
          intro cell hcell
          obtain rfl : cell = { lo := previousBound, hi := none, number := c.value - previousCount } := by
            simpa [closed, cells, Bound.value] using hcell
          exact le_refl _
  | cons x xs ih =>
      cases counts with
      | nil => intro c hc; cases hc
      | cons c counts =>
          intro cell hcell
          rcases List.mem_cons.mp hcell with rfl | hcell
          · exact le_refl _
          · exact (hlast x (List.mem_cons_self ..)).trans
              (ih hxs.tail (fun y hy => (hxs.head_lt y hy).le) cell hcell)

end Loops

/-! ## `_histogram` -/

/-- What a histogram is: cumulative counts up to its count, and a total that is, up to the tolerance, the
    sum of nonnegative values with just these numbers of values in the closed buckets. -/
structure Genuine (bounds : List Bound) (counts : List Num) (count total : Num) : Prop where
  length : counts.length = bounds.length
  nondecreasing : (counts.map Num.value).IsChain (· ≤ ·)
  last : counts.getLast?.map Num.value = some count.value
  empty : count.value = 0 → total.value = 0
  sum : ∃ values : Multiset ℚ, (∀ x ∈ values, 0 ≤ x) ∧ Distributed (bucketCells bounds counts) values ∧
    |values.sum - total.value| ≤ tolerance (bucketCells bounds counts) total.value

/-- Counts start from nothing. -/
theorem isChain_zero_cons {counts : List Num} (hcounts : ∀ c ∈ counts, c.SafeCount)
    (hchain : (counts.map Num.value).IsChain (· ≤ ·)) : (0 :: counts.map Num.value).IsChain (· ≤ ·) := by
  cases counts with
  | nil => exact List.isChain_singleton 0
  | cons c counts =>
      rw [List.map_cons, List.isChain_cons_cons]
      exact ⟨(hcounts c (List.mem_cons_self ..)).nonneg, hchain⟩

/-- The feasibility bounds of `_histogram` say that there are such values. -/
theorem feasible_iff {xs counts : List Num} {total : ℚ} (hxs : Increasing xs)
    (hcounts : ∀ c ∈ counts, c.SafeCount) (hlength : counts.length = xs.length + 1)
    (hchain : (counts.map Num.value).IsChain (· ≤ ·)) :
    let f := ((closed xs).zip counts).foldl Feasible.next {}
    (f.lower - f.tolerance total ≤ total ∧
        (!f.unbounded && decide (f.upper + f.tolerance total < total)) = false) ↔
      ∃ values : Multiset ℚ, (∀ x ∈ values, 0 ≤ x) ∧ Distributed (bucketCells (closed xs) counts) values ∧
        |values.sum - total| ≤ tolerance (bucketCells (closed xs) counts) total := by
  intro f
  obtain ⟨hlower, hupper, hunbounded⟩ := @foldl_closed xs counts hlength {} rfl
  have hzero : (0 : ℚ) + lowerSum (bucketCells (closed xs) counts) = _ := zero_add _
  have hzero' : (0 : ℚ) + upperSum (bucketCells (closed xs) counts) = _ := zero_add _
  replace hlower : f.lower = lowerSum (bucketCells (closed xs) counts) := hlower.trans hzero
  replace hupper : f.upper = upperSum (bucketCells (closed xs) counts) := hupper.trans hzero'
  replace hunbounded : f.unbounded = true ↔ Unbounded (bucketCells (closed xs) counts) := hunbounded
  have htolerance : f.tolerance total = tolerance (bucketCells (closed xs) counts) total := by
    unfold Feasible.tolerance tolerance
    rw [hlower, hupper]
  have hproper : ∀ c ∈ bucketCells (closed xs) counts, c.Proper :=
    cells_proper hxs (fun x hx => (hxs.safe x hx).nonneg) hcounts ⟨0, rfl⟩ (isChain_zero_cons hcounts hchain)
  have hnonneg : 0 ≤ tolerance (bucketCells (closed xs) counts) total :=
    mul_nonneg (by norm_num) (zero_le_one.trans (le_max_left _ _))
  rw [hlower, hupper, htolerance, Bool.and_eq_false_iff, Bool.not_eq_false', decide_eq_false_iff_not, not_lt,
    hunbounded, or_iff_not_imp_left, ← exists_near_iff hproper hnonneg]
  constructor
  · rintro ⟨values, hvalues, hnear⟩
    exact ⟨values, hvalues.lower (cells_lower hxs fun x hx => (hxs.safe x hx).nonneg), hvalues, hnear⟩
  · rintro ⟨values, -, hvalues, hnear⟩
    exact ⟨values, hvalues, hnear⟩

/-- `_histogram` accepts a genuine histogram, if it has at most `MAX_BUCKETS` buckets, and no other. -/
theorem histogram_iff {xs counts : List Num} {count total : Num} (hxs : Increasing xs)
    (hcounts : ∀ c ∈ counts, c.SafeCount) (hcount : count.SafeCount) (htotal : total.Safe) :
    histogram .exact (closed xs) counts (some count) (some total) = .ok () ↔
      (closed xs).length ≤ maxBuckets ∧ Genuine (closed xs) counts count total := by
  unfold histogram
  dsimp only
  rw [numberOf_safe hcount.toSafe (fun _ => hcount.integer), numberOf_safe htotal (fun h => by cases h)]
  simp only [bind_eq_ok, failIf_eq_ok, exists_const, Except.ok.injEq, exists_eq_left', keptNumber_exact,
    Bool.or_eq_false_iff, decide_eq_false_iff_not, closed_getLast?, closed_length, not_not, not_lt]
  have hfirst : ∀ x ∈ xs, (-1 : ℚ) < x.value := fun x hx => by linarith [(hxs.safe x hx).nonneg]
  constructor
  · rintro ⟨⟨⟨⟨-, hbuckets⟩, hlength⟩, -⟩, _, hloop, ⟨hlast, hempty⟩, hsum⟩
    have hchain := ((checkBuckets_closed hxs hfirst hcounts hlength.symm).mp hloop).tail
    refine ⟨hbuckets, hlength.symm.trans (closed_length xs).symm, hchain, hlast, ?_, ?_⟩
    · simpa using hempty
    · exact (feasible_iff hxs hcounts hlength.symm hchain).mp hsum
  · rintro ⟨hbuckets, hlength, hchain, hlast, hempty, hsum⟩
    rw [closed_length] at hlength
    refine ⟨⟨⟨⟨?_, hbuckets⟩, hlength.symm⟩, trivial⟩, (), ?_, ⟨hlast, by simpa using hempty⟩, ?_⟩
    · rw [List.isEmpty_eq_false_iff, ← List.length_pos_iff, closed_length]
      exact Nat.succ_pos _
    · exact (checkBuckets_closed hxs hfirst hcounts hlength).mpr (isChain_zero_cons hcounts hchain)
    · exact (feasible_iff hxs hcounts hlength hchain).mpr hsum

/-! ## Histograms of values -/

/-- Does the bucket up to this bound count the value? -/
def Bound.covers (b : Bound) (x : ℚ) : Bool := b.value.all (fun y => x ≤ y)

/-- Counts, count and total are those of the values. -/
structure Tallies (bounds : List Bound) (counts : List Num) (count total : Num) (values : Multiset ℚ) :
    Prop where
  counts : counts.map Num.value = bounds.map fun b => (values.countP (b.covers ·) : ℚ)
  count : count.value = values.card
  total : total.value = values.sum

/-- A later bound counts the values up to an earlier one, and those beyond it. -/
theorem countP_covers {x : Num} {b : Bound} (hb : ∀ y, b = .num y → x.value ≤ y.value) (values : Multiset ℚ) :
    values.countP (b.covers ·) = (values.filter (· ≤ x.value)).card +
      (values.filter fun v => ¬v ≤ x.value).countP (b.covers ·) := by
  conv_lhs => rw [← Multiset.filter_add_not (· ≤ x.value) values, Multiset.countP_add]
  refine congrArg (· + _) (Multiset.countP_eq_card.mpr fun v hv => ?_)
  have hv := (Multiset.mem_filter.mp hv).2
  cases b with
  | num y => exact decide_eq_true (hv.trans (hb y rfl))
  | inf => rfl

theorem mem_closed {xs : List Num} {y : Num} (h : .num y ∈ closed xs) : y ∈ xs := by
  unfold closed at h
  simpa using h

/-- The values of a histogram, bucket by bucket. -/
theorem distributed_tally {xs counts : List Num} {previousBound previousCount : ℚ} {values : Multiset ℚ}
    (hxs : Increasing xs) (hvalues : ∀ x ∈ values, previousBound ≤ x)
    (hcounts : counts.map Num.value =
      (closed xs).map fun b => previousCount + (values.countP (b.covers ·) : ℚ)) :
    Distributed (cells previousBound previousCount ((closed xs).zip counts)) values := by
  induction xs generalizing counts previousBound previousCount values with
  | nil =>
      obtain ⟨c, rest, rfl, hc, hrest⟩ := List.map_eq_cons_iff.mp hcounts
      obtain rfl := List.map_eq_nil_iff.mp hrest
      have hall : values.countP (Bound.inf.covers ·) = values.card :=
        Multiset.countP_eq_card.mpr fun _ _ => rfl
      replace hc : c.value = previousCount + (values.countP (Bound.inf.covers ·) : ℚ) := hc
      rw [hall] at hc
      have hcell : Cell.Holds { lo := previousBound, hi := none, number := c.value - previousCount } values :=
        ⟨(sub_eq_of_eq_add' hc).symm, hvalues, fun b hb => by cases hb⟩
      have h := hcell.cons distributed_nil
      rwa [add_zero] at h
  | cons x xs ih =>
      obtain ⟨c, rest, rfl, hc, hrest⟩ := List.map_eq_cons_iff.mp hcounts
      -- the values up to the first bound are in the first bucket, the others further on
      replace hc : c.value = previousCount + ((values.filter (· ≤ x.value)).card : ℚ) := by
        refine hc.trans (congrArg (fun n : ℕ => previousCount + (n : ℚ)) ?_)
        rw [Multiset.countP_eq_card_filter]
        simp [Bound.covers, Bound.value]
      have hcell : Cell.Holds { lo := previousBound, hi := some x.value, number := c.value - previousCount }
          (values.filter (· ≤ x.value)) := by
        refine ⟨(sub_eq_of_eq_add' hc).symm, fun v hv => hvalues v (Multiset.mem_filter.mp hv).1, ?_⟩
        rintro b hb v hv
        obtain rfl := Option.some.inj hb
        exact (Multiset.mem_filter.mp hv).2
      have hbeyond : ∀ v ∈ values.filter (fun v => ¬v ≤ x.value), x.value ≤ v := fun v hv =>
        (not_le.mp (Multiset.mem_filter.mp hv).2).le
      have htail := @ih rest x.value c.value _ hxs.tail hbeyond (by
        rw [hrest]
        refine List.map_congr_left fun b hb => ?_
        rw [@countP_covers x b (by rintro y rfl; exact (hxs.head_lt y (mem_closed hb)).le), hc, Nat.cast_add,
          add_assoc])
      have h := hcell.cons htail
      rwa [Multiset.filter_add_not] at h

theorem countP_covers_le {a b : Bound} (h : ∀ v, a.covers v = true → b.covers v = true)
    (values : Multiset ℚ) : values.countP (a.covers ·) ≤ values.countP (b.covers ·) := by
  rw [Multiset.countP_eq_card_filter, Multiset.countP_eq_card_filter]
  exact Multiset.card_le_card (Multiset.monotone_filter_right values h)

theorem Increasing.covers {xs : List Num} (h : Increasing xs) :
    (closed xs).Pairwise fun a b => ∀ v, a.covers v = true → b.covers v = true := by
  refine List.pairwise_append.mpr ⟨?_, List.pairwise_singleton _ _, ?_⟩
  · refine List.pairwise_map.mpr ((List.pairwise_map.mp h.sorted).imp ?_)
    intro x y hlt v hv
    exact decide_eq_true ((of_decide_eq_true hv).trans hlt.le)
  · intro a _ b hb v _
    rw [List.mem_singleton.mp hb]
    rfl

/-- The counts of a histogram of values do not decrease, and the last is the count. -/
theorem Tallies.genuine {xs counts : List Num} {count total : Num} {values : Multiset ℚ} (hxs : Increasing xs)
    (h : Tallies (closed xs) counts count total values) (hvalues : ∀ x ∈ values, 0 ≤ x) :
    Genuine (closed xs) counts count total := by
  have hlength : counts.length = (closed xs).length := by
    have := congrArg List.length h.counts
    rwa [List.length_map, List.length_map] at this
  refine ⟨hlength, ?_, ?_, ?_, values, hvalues, ?_, ?_⟩
  · rw [h.counts]
    refine (List.pairwise_map.mpr (hxs.covers.imp fun {a b} hab => ?_)).isChain
    exact Nat.cast_le.mpr (countP_covers_le hab values)
  · have hall : values.countP (Bound.inf.covers ·) = values.card :=
      Multiset.countP_eq_card.mpr fun _ _ => rfl
    rw [← List.getLast?_map, h.counts, List.getLast?_map, closed_getLast?, Option.map_some, hall, h.count]
  · intro hzero
    rw [h.count] at hzero
    have hempty : values = 0 := Multiset.card_eq_zero.mp (by exact_mod_cast hzero)
    rw [h.total, hempty, Multiset.sum_zero]
  · refine distributed_tally hxs hvalues ?_
    rw [h.counts]
    simp only [zero_add]
  · rw [h.total, sub_self, abs_zero]
    exact mul_nonneg (by norm_num) (zero_le_one.trans (le_max_left _ _))

/-- The difference of two histograms of growing values is the histogram of those between. -/
theorem Tallies.sub {bounds : List Bound} {oldCounts newCounts : List Num} {oldCount newCount oldTotal
    newTotal : Num} {values added : Multiset ℚ} (hold : Tallies bounds oldCounts oldCount oldTotal values)
    (hnew : Tallies bounds newCounts newCount newTotal (values + added)) :
    Tallies bounds (List.zipWith (Num.sub .exact) newCounts oldCounts) (newCount.sub .exact oldCount)
      (newTotal.sub .exact oldTotal) added := by
  refine ⟨?_, ?_, ?_⟩
  · have hsub : (List.zipWith (Num.sub .exact) newCounts oldCounts).map Num.value =
        List.zipWith (· - ·) (newCounts.map Num.value) (oldCounts.map Num.value) := by
      rw [List.map_zipWith, List.zipWith_map]
      exact congrArg (fun f => List.zipWith f newCounts oldCounts)
        (funext fun a => funext fun b => Num.sub_exact a b)
    rw [hsub, hnew.counts, hold.counts, List.zipWith_map, List.zipWith_self]
    refine List.map_congr_left fun b _ => ?_
    rw [Multiset.countP_add, Nat.cast_add, add_sub_cancel_left]
  · rw [Num.sub_exact, hnew.count, hold.count, Multiset.card_add, Nat.cast_add, add_sub_cancel_left]
  · rw [Num.sub_exact, hnew.total, hold.total, Multiset.sum_add, add_sub_cancel_left]

/-- Bounds of the same values count the same. -/
theorem Tallies.bounds {bounds bounds' : List Bound}
    (hbounds : bounds.map Bound.value = bounds'.map Bound.value) {counts : List Num} {count total : Num} {values : Multiset ℚ} (h : Tallies bounds counts count total values) :
    Tallies bounds' counts count total values := by
  refine ⟨?_, h.count, h.total⟩
  have hmap : ∀ bs : List Bound, bs.map (fun b => (values.countP (b.covers ·) : ℚ)) =
      (bs.map Bound.value).map (fun y => (values.countP (fun x => y.all (fun z => x ≤ z) = true) : ℚ)) := by
    intro bs
    rw [List.map_map]
    rfl
  rw [h.counts, hmap, hmap, hbounds]

/-- The limits of a histogram are those of its values. -/
theorem Tallies.safe {bounds : List Bound} {counts : List Num} {count total : Num} {values : Multiset ℚ}
    (h : Tallies bounds counts count total values) (hvalues : ∀ x ∈ values, 0 ≤ x)
    (hcard : (values.card : ℚ) ≤ maxSafeCount) (hsum : values.sum ≤ maxSafeCount) :
    (∀ c ∈ counts, c.SafeCount) ∧ count.SafeCount ∧ total.Safe := by
  refine ⟨?_, safeCount_of_nat h.count hcard, ?_, ?_⟩
  · intro c hc
    have hmem : c.value ∈ counts.map Num.value := List.mem_map_of_mem hc
    rw [h.counts] at hmem
    obtain ⟨b, -, hb⟩ := List.mem_map.mp hmem
    exact safeCount_of_nat hb.symm ((Nat.cast_le.mpr (Multiset.countP_le_card _ _)).trans hcard)
  · rw [h.total]
    exact Multiset.sum_nonneg hvalues
  · rw [h.total]
    exact hsum

/-- What counts and adds up values is accepted. -/
theorem Tallies.accepted {xs counts : List Num} {count total : Num} {values : Multiset ℚ} (hxs : Increasing xs)
    (hbuckets : (closed xs).length ≤ maxBuckets) (h : Tallies (closed xs) counts count total values)
    (hvalues : ∀ x ∈ values, 0 ≤ x) (hcard : (values.card : ℚ) ≤ maxSafeCount)
    (hsum : values.sum ≤ maxSafeCount) :
    histogram .exact (closed xs) counts (some count) (some total) = .ok () := by
  obtain ⟨hcounts, hcount, htotal⟩ := h.safe hvalues hcard hsum
  exact (histogram_iff hxs hcounts hcount htotal).mpr ⟨hbuckets, h.genuine hxs hvalues⟩

theorem delta_of_change {S C : Type} {k : SeriesKind S C} {previous current : S} {elapsed duration : Num}
    {maximum : ℚ} {windowFrom windowTo : Option Num} {change : C}
    (hcreated : createdDiffers (k.head previous) (k.head current) = false)
    (hduration : seriesElapsed .exact (k.head previous) (k.head current) elapsed maximum = .ok duration)
    (hchange : k.change previous current duration = .ok change) :
    (delta .exact k (some previous) current (some elapsed) maximum none windowFrom windowTo).state = .valid ∧
      (delta .exact k (some previous) current (some elapsed) maximum none windowFrom windowTo).change =
        some change := by
  have hof : changeOf .exact k (some previous) current (some elapsed) maximum = .ok (duration, change) := by
    unfold changeOf
    dsimp only
    rw [hcreated, if_neg Bool.false_ne_true, Option.getD_some, hduration]
    show (do let c ← k.change previous current duration; Except.ok (duration, c)) = _
    rw [hchange]
    rfl
  unfold delta
  dsimp only
  rw [hof]
  exact ⟨rfl, rfl⟩

/-- Two observations of growing request values: the same bounds, and the values within the limits. -/
structure Growing (previous current : Histogram) (xs ys : List Num) (values added : Multiset ℚ) : Prop where
  previousBounds : previous.bounds = closed xs
  currentBounds : current.bounds = closed ys
  same : xs.map Num.value = ys.map Num.value
  previousIncreasing : Increasing xs
  currentIncreasing : Increasing ys
  nonneg : ∀ x ∈ values + added, 0 ≤ x
  card : ((values + added).card : ℚ) ≤ maxSafeCount
  sum : (values + added).sum ≤ maxSafeCount
  previous : Tallies (closed xs) previous.counts previous.count previous.sum values
  current : Tallies (closed ys) current.counts current.count current.sum (values + added)

theorem closed_value (xs : List Num) :
    (closed xs).map Bound.value = (xs.map Num.value).map some ++ [none] := by
  unfold closed
  rw [List.map_append, List.map_map, List.map_map]
  rfl

section Growing

variable {previous current : Histogram} {xs ys : List Num} {values added : Multiset ℚ}

theorem Growing.sameBounds (h : Growing previous current xs ys values added) :
    (closed ys).map Bound.value = (closed xs).map Bound.value := by
  rw [closed_value, closed_value, h.same]

/-- A part of the values is within the limits that all of them are in. -/
theorem Growing.part (h : Growing previous current xs ys values added) {part : Multiset ℚ}
    (hpart : part ≤ values + added) :
    (∀ x ∈ part, 0 ≤ x) ∧ (part.card : ℚ) ≤ maxSafeCount ∧ part.sum ≤ maxSafeCount := by
  refine ⟨fun x hx => h.nonneg x (Multiset.mem_of_le hpart hx), ?_, ?_⟩
  · exact (Nat.cast_le.mpr (Multiset.card_le_card hpart)).trans h.card
  · obtain ⟨rest, hrest⟩ := Multiset.le_iff_exists_add.mp hpart
    have hnonneg : 0 ≤ rest.sum := Multiset.sum_nonneg fun x hx =>
      h.nonneg x (hrest ▸ Multiset.mem_add.mpr (.inr hx))
    have hsum := h.sum
    rw [hrest, Multiset.sum_add] at hsum
    exact (le_add_of_nonneg_right hnonneg).trans hsum

theorem Growing.previous_accepted (h : Growing previous current xs ys values added)
    (hbuckets : (closed xs).length ≤ maxBuckets) :
    histogram .exact previous.bounds previous.counts (some previous.count) (some previous.sum) = .ok () := by
  obtain ⟨hnonneg, hcard, hsum⟩ := h.part (Multiset.le_add_right values added)
  rw [h.previousBounds]
  exact h.previous.accepted h.previousIncreasing hbuckets hnonneg hcard hsum

theorem Growing.length (h : Growing previous current xs ys values added) :
    (closed ys).length = (closed xs).length := by
  have := congrArg List.length h.sameBounds
  rwa [List.length_map, List.length_map] at this

theorem Growing.current_accepted (h : Growing previous current xs ys values added)
    (hbuckets : (closed xs).length ≤ maxBuckets) :
    histogram .exact current.bounds current.counts (some current.count) (some current.sum) = .ok () := by
  rw [h.currentBounds]
  exact h.current.accepted h.currentIncreasing (h.length.le.trans hbuckets) h.nonneg h.card h.sum

/-- The change of the histogram of growing values is the histogram of the values added. -/
theorem Growing.change (h : Growing previous current xs ys values added)
    (hbuckets : (closed xs).length ≤ maxBuckets) (duration : Num) :
    ∃ change, histogramChange .exact previous current duration = .ok change ∧
      Tallies current.bounds change.counts change.count change.sum added := by
  have htally := (h.previous.bounds h.sameBounds.symm).sub h.current
  obtain ⟨hnonneg, hcard, hsum⟩ := h.part (Multiset.le_add_left added values)
  have haccepted := htally.accepted h.currentIncreasing (h.length.le.trans hbuckets) hnonneg hcard hsum
  have hbounds : ¬(closed ys).map Bound.value ≠ (closed xs).map Bound.value := not_not.mpr h.sameBounds
  unfold histogramChange
  rw [h.currentBounds, h.previousBounds, if_neg hbounds]
  dsimp only
  rw [haccepted]
  exact ⟨_, rfl, htally⟩

end Growing

/-- **The histogram check is exact**, up to the number of buckets, and exact observations of growing values
    pass it, and so does their difference. -/
theorem histogram_exact :
    (∀ xs counts count total, Increasing xs → (∀ c ∈ counts, c.SafeCount) → count.SafeCount → total.Safe →
      (histogram .exact (closed xs) counts (some count) (some total) = .ok () ↔
        (closed xs).length ≤ maxBuckets ∧ Genuine (closed xs) counts count total)) ∧
    ∀ previous current xs ys values added, Growing previous current xs ys values added →
      (closed xs).length ≤ maxBuckets →
      histogram .exact previous.bounds previous.counts (some previous.count) (some previous.sum) = .ok () ∧
      histogram .exact current.bounds current.counts (some current.count) (some current.sum) = .ok () ∧
      ∀ elapsed maximum duration windowFrom windowTo, createdDiffers previous.head current.head = false →
        seriesElapsed .exact previous.head current.head elapsed maximum = .ok duration →
        let row := delta .exact (histogramKind .exact) (some previous) current (some elapsed) maximum none
          windowFrom windowTo
        row.state = .valid ∧ ∃ change, row.change = some change ∧
          Tallies current.bounds change.counts change.count change.sum added := by
  refine ⟨fun xs counts count total hxs hcounts hcount htotal => histogram_iff hxs hcounts hcount htotal, ?_⟩
  intro previous current xs ys values added h hbuckets
  refine ⟨h.previous_accepted hbuckets, h.current_accepted hbuckets, ?_⟩
  intro elapsed maximum duration windowFrom windowTo hcreated hduration
  obtain ⟨change, hchange, htally⟩ := h.change hbuckets duration
  obtain ⟨hstate, hrow⟩ := @delta_of_change _ _ (histogramKind .exact) _ _ elapsed _ maximum windowFrom windowTo
    _ hcreated hduration hchange
  exact ⟨hstate, change, hrow, htally⟩

/-! ## One bound, and too many bounds -/

/-- A histogram of request times with the bound `1`. -/
def requestTimes (counts : List Num) (count total : Num) : Histogram where
  head := { family := ⟨"vllm:request_queue_time_seconds", .histograms, .seconds, []⟩, labels := []
            sampleAt := none, createdAt := none, typeDeclared := true }
  bounds := closed [.int 1]
  counts := counts
  count := count
  sum := total

theorem increasing_one : Increasing [.int 1] :=
  ⟨List.pairwise_singleton _ _, fun x hx => by
    obtain rfl := List.mem_singleton.mp hx
    exact ⟨by decide +kernel, by decide +kernel⟩⟩

/-- A request of half a second, then one of two seconds more. -/
theorem growing_one : Growing (requestTimes [.int 1, .int 1] (.int 1) (.float (1 / 2)))
    (requestTimes [.int 1, .int 2] (.int 2) (.float (5 / 2))) [.int 1] [.int 1]
    (([1 / 2] : List ℚ)) (([2] : List ℚ)) where
  previousBounds := rfl
  currentBounds := rfl
  same := rfl
  previousIncreasing := increasing_one
  currentIncreasing := increasing_one
  nonneg := by decide +kernel
  card := by decide +kernel
  sum := by decide +kernel
  previous := ⟨by decide +kernel, by decide +kernel, by decide +kernel⟩
  current := ⟨by decide +kernel, by decide +kernel, by decide +kernel⟩

theorem histogram_exact_one :
    Genuine (closed [.int 1]) [.int 1, .int 2] (.int 2) (.float (5 / 2)) ∧
      ∃ change, (delta .exact (histogramKind .exact)
          (some (requestTimes [.int 1, .int 1] (.int 1) (.float (1 / 2))))
          (requestTimes [.int 1, .int 2] (.int 2) (.float (5 / 2))) (some (.int 10)) 60 none none none).change =
        some change ∧ Tallies (closed [.int 1]) change.counts change.count change.sum (([2] : List ℚ)) := by
  have hone : ∀ n : Nat, n ≤ 2 → Num.SafeCount (.int n) := fun n hn =>
    @safeCount_of_nat (.int n) n rfl (by
      have : (n : ℚ) ≤ 2 := by exact_mod_cast hn
      exact this.trans (by decide +kernel))
  have hcounts : ∀ c ∈ [Num.int 1, Num.int 2], c.SafeCount := by
    intro c hc
    rcases List.mem_pair.mp hc with rfl | rfl
    · exact hone 1 (by decide)
    · exact hone 2 (by decide)
  obtain ⟨-, -, hdelta⟩ := histogram_exact.2 _ _ _ _ _ _ growing_one (by decide)
  obtain ⟨-, change, hchange, htally⟩ := hdelta (.int 10) 60 (.int 10) none none (by decide) rfl
  have hgenuine := (histogram_exact.1 [.int 1] [.int 1, .int 2] (.int 2) (.float (5 / 2)) increasing_one hcounts
    (hone 2 (by decide)) ⟨by decide +kernel, by decide +kernel⟩).mp (by decide +kernel)
  exact ⟨hgenuine.2, change, hchange, htally⟩

/-- The histogram of no values, with 129 buckets, is refused. -/
theorem histogram_too_many_buckets : ∃ xs counts count total, Increasing xs ∧ (∀ c ∈ counts, c.SafeCount) ∧
    count.SafeCount ∧ total.Safe ∧ Genuine (closed xs) counts count total ∧
    histogram .exact (closed xs) counts (some count) (some total) ≠ .ok () := by
  let xs : List Num := (List.range 128).map fun (n : ℕ) => .int n
  have hxs : Increasing xs := by
    refine ⟨?_, fun x hx => ?_⟩
    · refine List.pairwise_map.mpr (List.pairwise_map.mpr (List.pairwise_lt_range.imp ?_))
      intro m n hlt
      show ((m : ℤ) : ℚ) < ((n : ℤ) : ℚ)
      exact_mod_cast hlt
    · obtain ⟨n, hn, rfl⟩ := List.mem_map.mp hx
      have hle : (n : ℚ) ≤ 128 := by exact_mod_cast (List.mem_range.mp hn).le
      exact (@safeCount_of_nat (.int n) n rfl (hle.trans (by decide +kernel))).toSafe
  have hzero : Num.SafeCount (.int 0) := @safeCount_of_nat (.int 0) 0 rfl (by decide +kernel)
  have htally : Tallies (closed xs) (List.replicate 129 (.int 0)) (.int 0) (.int 0) 0 := by
    refine ⟨?_, rfl, rfl⟩
    have hbounds : (closed xs).length = 129 := by simp [xs]
    rw [List.map_replicate, ← hbounds, ← List.map_const']
    rfl
  have hcounts : ∀ c ∈ List.replicate 129 (Num.int 0), c.SafeCount := by
    intro c hc
    rw [List.eq_of_mem_replicate hc]
    exact hzero
  refine ⟨xs, List.replicate 129 (.int 0), .int 0, .int 0, hxs, hcounts, hzero, hzero.toSafe,
    htally.genuine hxs (fun x hx => absurd hx (Multiset.notMem_zero x)), fun h => ?_⟩
  have hbuckets := ((histogram_iff hxs hcounts hzero hzero.toSafe).mp h).1
  simp [xs, maxBuckets] at hbuckets

end Metrics
end PickleInfra
