import Dander.Execution
import Dander.ScheduleExpression
import Mathlib

/-!
# When a schedule scan returns

The scan raises a bound error, or an overflow where a datetime leaves the years 1 to
9999. These are the inputs on which it returns, and what it returns there.
-/
namespace Dander.Schedule

section Occurrences

/-- The projection of a UTC minute into the zone exists and is selected. -/
def FiveFieldCron.matchesUtc (schedule : FiveFieldCron) (timeZone : ZoneInfo) (value : ℤ) : Bool :=
  match astimezone value timeZone with
  | .ok time => schedule.matchesLocal time
  | .error _ => false

/-- The matching minutes of `(after, through]`, in increasing order. -/
def matchesBetween (schedule : FiveFieldCron) (timeZone : ZoneInfo) (after through : ℤ) : List ℤ :=
  (minutesBetween after through).filter (schedule.matchesUtc timeZone)

/-- The wall clock of the zone stays within the years 1 to 9999 at the minute, and so does
the next UTC minute. -/
def Scannable (timeZone : ZoneInfo) (value : ℤ) : Prop :=
  (∃ time, astimezone value timeZone = .ok time) ∧ value < maxMinute

variable {schedule : FiveFieldCron} {timeZone : ZoneInfo} {after mid through : ℤ}

theorem mem_matchesBetween {value : ℤ} :
    value ∈ matchesBetween schedule timeZone after through ↔
      after < value ∧ value ≤ through ∧ schedule.matchesUtc timeZone value = true := by
  simp only [matchesBetween, List.mem_filter, mem_minutesBetween, and_assoc]

theorem pairwise_minutesBetween : (minutesBetween after through).Pairwise (· < ·) := by
  refine List.Pairwise.map (fun i : ℕ => after + 1 + (i : ℤ)) ?_ List.pairwise_lt_range
  intro i j hij
  show after + 1 + (i : ℤ) < after + 1 + (j : ℤ)
  omega

theorem pairwise_matchesBetween :
    (matchesBetween schedule timeZone after through).Pairwise (· < ·) :=
  pairwise_minutesBetween.filter _

/-- A cut point of the interval is a cut point of its occurrences. -/
theorem matchesBetween_append (hafter : after ≤ mid) (hmid : mid ≤ through) :
    matchesBetween schedule timeZone after through =
      matchesBetween schedule timeZone after mid ++
        matchesBetween schedule timeZone mid through := by
  simp only [matchesBetween, minutesBetween_append hafter hmid, List.filter_append]

theorem matchesBetween_cons (h : mid ≤ through) :
    matchesBetween schedule timeZone (mid - 1) through =
      [mid].filter (schedule.matchesUtc timeZone) ++
        matchesBetween schedule timeZone mid through := by
  have hone : minutesBetween (mid - 1) mid = [mid] := by
    simp [minutesBetween]
  rw [matchesBetween_append (by omega : mid - 1 ≤ mid) h]
  simp only [matchesBetween, hone]

theorem matchesBetween_nil (h : through ≤ after) :
    matchesBetween schedule timeZone after through = [] := by
  have hlen : (through - after).toNat = 0 := by omega
  simp [matchesBetween, minutesBetween, hlen]

end Occurrences

section Scan

variable {schedule : FiveFieldCron} {timeZone : ZoneInfo} {after mid through : ℤ}
  {maxMinutes maxOccurrences : ℤ}

theorem addMinutes_one_of_lt {value : ℤ} (hlow : minMinute ≤ value) (h : value < maxMinute) :
    addMinutes value 1 = .ok (value + 1) := by
  unfold addMinutes
  rw [if_pos (by omega)]

theorem addMinutes_one_of_not_lt {value : ℤ} (h : ¬ value < maxMinute) :
    addMinutes value 1 = .error .overflow := by
  unfold addMinutes
  rw [if_neg (by omega)]

theorem matchesUtc_of_astimezone {value : ℤ} {time : LocalTime}
    (h : astimezone value timeZone = .ok time) :
    schedule.matchesUtc timeZone value = schedule.matchesLocal time := by
  simp only [FiveFieldCron.matchesUtc, h]

/-- One round of the scan returns exactly when the minute can be scanned, its occurrence is
within the bound, and the rest of the scan returns. -/
theorem scanMinutes_succ_iff {fuel : ℕ} {candidate : ℤ} {found result : List ℤ}
    (hlow : minMinute ≤ candidate) (hle : candidate ≤ through)
    (hfound : (found.length : ℤ) ≤ maxOccurrences) :
    scanMinutes schedule timeZone through maxOccurrences (fuel + 1) candidate found =
        .ok result ↔
      Scannable timeZone candidate ∧
        ((found ++ [candidate].filter (schedule.matchesUtc timeZone)).length : ℤ) ≤
          maxOccurrences ∧
        scanMinutes schedule timeZone through maxOccurrences fuel (candidate + 1)
          (found ++ [candidate].filter (schedule.matchesUtc timeZone)) = .ok result := by
  simp only [scanMinutes, if_pos hle, Scannable]
  cases htime : astimezone candidate timeZone with
  | error failure => simp [bind, Except.bind]
  | ok time =>
    have hmatches : schedule.matchesUtc timeZone candidate = schedule.matchesLocal time :=
      matchesUtc_of_astimezone htime
    by_cases hlast : candidate < maxMinute
    · have hnext := addMinutes_one_of_lt hlow hlast
      by_cases hmatch : schedule.matchesLocal time = true
      · by_cases hbound : maxOccurrences ≤ (found.length : ℤ)
        · have hover : ¬ (found.length : ℤ) + 1 ≤ maxOccurrences := by omega
          simp [bind, Except.bind, throw, throwThe, MonadExceptOf.throw, hmatch, hmatches,
            hlast, hbound, hover]
        · have hroom : (found.length : ℤ) + 1 ≤ maxOccurrences := by omega
          simp [bind, Except.bind, hmatch, hmatches, hnext, hlast, hbound, hroom]
      · simp [bind, Except.bind, hmatch, hmatches, hnext, hlast, hfound]
    · have hnext := addMinutes_one_of_not_lt hlast
      by_cases hmatch : schedule.matchesLocal time = true
      · by_cases hbound : maxOccurrences ≤ (found.length : ℤ)
        · simp [bind, Except.bind, throw, throwThe, MonadExceptOf.throw, hmatch, hlast, hbound]
        · simp [bind, Except.bind, hmatch, hnext, hlast, hbound]
      · simp [bind, Except.bind, hmatch, hnext, hlast]

/-- The scan returns exactly when every remaining minute can be scanned and all occurrences
are within the bound. -/
theorem scanMinutes_iff {fuel : ℕ} {candidate : ℤ} {found result : List ℤ}
    (hfuel : (through - candidate + 1).toNat < fuel) (hlow : minMinute ≤ candidate)
    (hfound : (found.length : ℤ) ≤ maxOccurrences) :
    scanMinutes schedule timeZone through maxOccurrences fuel candidate found = .ok result ↔
      result = found ++ matchesBetween schedule timeZone (candidate - 1) through ∧
        (result.length : ℤ) ≤ maxOccurrences ∧
        ∀ value, candidate ≤ value → value ≤ through → Scannable timeZone value := by
  induction fuel generalizing candidate found with
  | zero => omega
  | succ fuel ih =>
    by_cases hle : candidate ≤ through
    · rw [scanMinutes_succ_iff hlow hle hfound, matchesBetween_cons hle, ← List.append_assoc]
      constructor
      · rintro ⟨hscan, hbound, hrest⟩
        obtain ⟨rfl, hlength, hall⟩ := (ih (by omega) (by omega) hbound).mp hrest
        refine ⟨by simp, hlength, ?_⟩
        intro value hlo hhi
        rcases eq_or_lt_of_le hlo with rfl | hlt
        · exact hscan
        · exact hall value (by omega) hhi
      · rintro ⟨rfl, hlength, hall⟩
        have hbound : ((found ++ [candidate].filter
            (schedule.matchesUtc timeZone)).length : ℤ) ≤ maxOccurrences := by
          simp only [List.length_append] at hlength ⊢
          omega
        refine ⟨hall candidate le_rfl hle, hbound, ?_⟩
        refine (ih (by omega) (by omega) hbound).mpr ⟨by simp, hlength, ?_⟩
        intro value hlo hhi
        exact hall value (by omega) hhi
    · rw [matchesBetween_nil (by omega), List.append_nil]
      simp only [scanMinutes, if_neg hle, Except.ok.injEq]
      constructor
      · rintro rfl
        exact ⟨rfl, hfound, fun value hlo hhi => by omega⟩
      · rintro ⟨rfl, -, -⟩
        rfl

end Scan

section Composition

variable (schedule : FiveFieldCron) (timeZone : ZoneInfo) (after through : ℤ)
  (maxMinutes maxOccurrences : ℤ)

/-- The arguments are in range, and the span and the number of matches within the bounds. -/
structure WithinBounds : Prop where
  forward : after ≤ through
  scanBound : 1 ≤ maxMinutes ∧ maxMinutes ≤ 525600
  occurrenceBound : 1 ≤ maxOccurrences ∧ maxOccurrences ≤ 10000
  span : through - after ≤ maxMinutes
  count : ((matchesBetween schedule timeZone after through).length : ℤ) ≤ maxOccurrences

/-- No minute of the interval leaves the datetimes, in UTC or in the zone. -/
def ScannableBetween : Prop :=
  through < maxMinute ∧ ∀ value, after < value → value ≤ through → Scannable timeZone value

/-- The scan returns exactly the matching minutes within the bounds, cut anywhere, and raises
outside of them. -/
structure ScansExactly : Prop where
  returned : WithinBounds schedule timeZone after through maxMinutes maxOccurrences →
    ∃ result, iterScheduleOccurrences schedule timeZone after through maxMinutes
        maxOccurrences = .ok result ∧
      result.Pairwise (· < ·) ∧
      (∀ value, value ∈ result ↔
        after < value ∧ value ≤ through ∧ schedule.matchesUtc timeZone value = true) ∧
      ∀ mid, after ≤ mid → mid ≤ through → ∃ first rest,
        iterScheduleOccurrences schedule timeZone after mid maxMinutes maxOccurrences =
          .ok first ∧
        iterScheduleOccurrences schedule timeZone mid through maxMinutes maxOccurrences =
          .ok rest ∧
        result = first ++ rest
  raised : ¬ WithinBounds schedule timeZone after through maxMinutes maxOccurrences →
    ∃ failure, iterScheduleOccurrences schedule timeZone after through maxMinutes
      maxOccurrences = .error failure

variable {schedule timeZone after through maxMinutes maxOccurrences}

/-- The calls that return, and what they return. -/
theorem iterScheduleOccurrences_iff (hafter : minMinute ≤ after) {result : List ℤ} :
    iterScheduleOccurrences schedule timeZone after through maxMinutes maxOccurrences =
        .ok result ↔
      WithinBounds schedule timeZone after through maxMinutes maxOccurrences ∧
        after < maxMinute ∧
        (∀ value, after < value → value ≤ through → Scannable timeZone value) ∧
        result = matchesBetween schedule timeZone after through := by
  constructor
  · intro h
    simp only [iterScheduleOccurrences] at h
    obtain ⟨hforward, h⟩ := Execution.guard_eq_ok h
    obtain ⟨hscanBound, h⟩ := Execution.guard_eq_ok h
    obtain ⟨hoccurrenceBound, h⟩ := Execution.guard_eq_ok h
    obtain ⟨hspan, h⟩ := Execution.guard_eq_ok h
    obtain ⟨first, hfirst, h⟩ := Execution.bind_eq_ok h
    simp only [Bool.not_eq_true', Bool.and_eq_false_iff, decide_eq_false_iff_not, not_or,
      not_not] at hscanBound hoccurrenceBound
    have hlast : after < maxMinute := by
      by_contra hnot
      rw [addMinutes_one_of_not_lt hnot] at hfirst
      cases hfirst
    obtain rfl := addMinutes_eq_ok hfirst
    obtain ⟨hresult, hcount, hall⟩ :=
      (scanMinutes_iff (by omega) (by omega) (by simp; omega)).mp h
    simp only [add_sub_cancel_right, List.nil_append] at hresult
    subst hresult
    refine ⟨⟨by omega, hscanBound, hoccurrenceBound, by omega, hcount⟩, hlast, ?_, rfl⟩
    intro value hlo hhi
    exact hall value (by omega) hhi
  · rintro ⟨hbounds, hlast, hall, rfl⟩
    have hfirst := addMinutes_one_of_lt hafter hlast
    have hforward : ¬ through < after := by
      have := hbounds.forward
      omega
    have hspan : ¬ maxMinutes < through - after := by
      have := hbounds.span
      omega
    have hoccurrences : ((([] : List ℤ).length : ℕ) : ℤ) ≤ maxOccurrences := by
      have := hbounds.occurrenceBound.1
      simpa using (by omega : (0 : ℤ) ≤ maxOccurrences)
    have hscan : scanMinutes schedule timeZone through maxOccurrences
        ((through - after).toNat + 1) (after + 1) [] =
          .ok (matchesBetween schedule timeZone after through) :=
      (scanMinutes_iff (by omega) (by omega) hoccurrences).mpr
        ⟨by simp, hbounds.count, fun value hlo hhi => hall value (by omega) hhi⟩
    simp [iterScheduleOccurrences, hforward, hbounds.scanBound, hbounds.occurrenceBound, hspan,
      hfirst, hscan, bind, Except.bind]

theorem WithinBounds.of_part {first last : ℤ}
    (h : WithinBounds schedule timeZone after through maxMinutes maxOccurrences)
    (hfirst : after ≤ first) (hforward : first ≤ last) (hlast : last ≤ through) :
    WithinBounds schedule timeZone first last maxMinutes maxOccurrences := by
  have hspan := h.span
  have hcount := h.count
  rw [matchesBetween_append hfirst (by omega : first ≤ through),
    matchesBetween_append hforward hlast] at hcount
  simp only [List.length_append] at hcount
  exact ⟨hforward, h.scanBound, h.occurrenceBound, by omega, by omega⟩

/-- A catch-up page no longer than the occurrence bound is within the bounds: a minute has
at most one occurrence. -/
theorem WithinBounds.of_page (hforward : after ≤ through)
    (hscan : 1 ≤ maxMinutes ∧ maxMinutes ≤ 525600)
    (hoccurrences : 1 ≤ maxOccurrences ∧ maxOccurrences ≤ 10000)
    (hpage : through ≤ after + min maxMinutes maxOccurrences) :
    WithinBounds schedule timeZone after through maxMinutes maxOccurrences := by
  have hlength : (matchesBetween schedule timeZone after through).length ≤
      (through - after).toNat := by
    refine le_trans (List.length_filter_le _ _) ?_
    simp [minutesBetween]
  exact ⟨hforward, hscan, hoccurrences, by omega, by omega⟩

def utcZone : ZoneInfo := ⟨"UTC", fun _ => 0⟩

/-- The expression `* * * * *`. -/
def anyMinute : FiveFieldCron :=
  { expression := "* * * * *"
    minute := ⟨rangeValues 0 60 1, true⟩
    hour := ⟨rangeValues 0 24 1, true⟩
    dayOfMonth := ⟨rangeValues 1 32 1, true⟩
    month := ⟨rangeValues 1 13 1, true⟩
    dayOfWeek := ⟨rangeValues 0 7 1, true⟩ }

theorem withinBounds_empty {value : ℤ} :
    WithinBounds schedule timeZone value value 1 1 := by
  refine WithinBounds.of_page le_rfl ⟨le_rfl, by omega⟩ ⟨le_rfl, by omega⟩ ?_
  omega

end Composition

end Dander.Schedule
