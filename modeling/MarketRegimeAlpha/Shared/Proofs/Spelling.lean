/-
Which values are hashed alike.

# Spelling

Equal decimals have several fixed-point texts, by the sign of a zero and by
their decimal places, and equal aware `datetime`s have several, by their offset.
`SpelledAlike` is what is left: equal values whose decimals have one sign and as
many places, and whose `datetime`s have one offset, up to the order of mappings
and sets. All else has one text.
-/
import MarketRegimeAlpha.Shared.Proofs.ContentIdentity

namespace MarketRegimeAlpha.Shared

open Lib List

-- ==== spelling

def places (d : Decimal) : Nat := (-d.exponent).toNat

/-- The leaves are one, or equal decimals of one sign and as many places, or
equal `datetime`s of one offset. -/
inductive LeafAlike : Value → Value → Prop where
  | same (v : Value) : LeafAlike v v
  | decimal {d d' : Decimal} (hvalue : d.value = d'.value)
      (hsign : d.negative = d'.negative) (hplaces : places d = places d') :
      LeafAlike (.decimal d) (.decimal d')
  | datetime {d d' : DateTime} {o : UtcOffset} (ho : d.utcoffset = some o)
      (ho' : d'.utcoffset = some o) (h : d.instant o = d'.instant o) :
      LeafAlike (.datetime d) (.datetime d')

/-- The values are equal with alike leaves, up to the order of mappings and
sets. -/
def SpelledAlike (v w : Value) : Prop := Matched LeafAlike v w

-- ==== instants

def daysBeforeYear (year : Nat) : Nat :=
  let before := year - 1
  before * 365 + before / 4 - before / 100 + before / 400

def daysBeforeMonth (year month : Nat) : Nat :=
  ((List.range (month - 1)).map fun m => daysInMonth year (m + 1)).sum

theorem Date.toOrdinal_eq (d : Date) : d.toOrdinal
    = daysBeforeYear d.year + daysBeforeMonth d.year d.month + d.day := rfl

theorem daysBeforeMonth_succ (year month : Nat) : daysBeforeMonth year (month + 2)
      = daysBeforeMonth year (month + 1) + daysInMonth year (month + 1) := by
  unfold daysBeforeMonth
  rw [Nat.add_sub_cancel, show month + 2 - 1 = month + 1 by omega,
    range_succ, map_append, sum_append]
  simp

theorem daysBeforeMonth_lt {year month month' : Nat} (hmonth : 1 ≤ month) (h : month < month') :
    daysBeforeMonth year month + daysInMonth year month ≤ daysBeforeMonth year month' := by
  obtain ⟨month, rfl⟩ := Nat.exists_eq_add_of_le' hmonth
  induction month', h using Nat.le_induction with
  | base => rw [← daysBeforeMonth_succ]
  | succ month' h ih =>
    obtain ⟨month', rfl⟩ := Nat.exists_eq_add_of_le' (Nat.one_le_of_lt h)
    rw [daysBeforeMonth_succ]
    omega

theorem daysBeforeYear_succ (year : Nat) : daysBeforeYear (year + 2)
    = daysBeforeYear (year + 1) + daysBeforeMonth (year + 1) 13 := by
  have hmonths : daysBeforeMonth (year + 1) 13 = if isLeap (year + 1) then 366 else 365 := by
    cases hleap : isLeap (year + 1) with
    | true => simp [daysBeforeMonth, daysInMonth, hleap, range_succ]
    | false => simp [daysBeforeMonth, daysInMonth, hleap, range_succ]
  have hstep : ∀ b, 0 < b → (year + 1) / b = year / b + if (year + 1) % b = 0 then 1 else 0 := by
    intro b hb
    simp only [Nat.succ_div, Nat.dvd_iff_mod_eq_zero]
  rw [hmonths]
  unfold daysBeforeYear isLeap
  dsimp only
  by_cases hfour : (year + 1) % 4 = 0
  · by_cases hcentury : (year + 1) % 100 = 0
    · by_cases hfourth : (year + 1) % 400 = 0
      · simp [hfour, hcentury, hfourth]
        omega
      · simp [hfour, hcentury, hfourth]
        omega
    · have hfourth : (year + 1) % 400 ≠ 0 := by omega
      simp [hfour, hcentury, hfourth]
      omega
  · have hcentury : (year + 1) % 100 ≠ 0 := by omega
    have hfourth : (year + 1) % 400 ≠ 0 := by omega
    simp [hfour, hcentury, hfourth]
    omega

theorem daysBeforeYear_lt {year year' : Nat} (hyear : 1 ≤ year) (h : year < year') :
    daysBeforeYear year + daysBeforeMonth year 13 ≤ daysBeforeYear year' := by
  obtain ⟨year, rfl⟩ := Nat.exists_eq_add_of_le' hyear
  induction year', h using Nat.le_induction with
  | base => rw [← daysBeforeYear_succ]
  | succ year' h ih =>
    obtain ⟨year', rfl⟩ := Nat.exists_eq_add_of_le' (Nat.one_le_of_lt h)
    rw [daysBeforeYear_succ year']
    omega

/-- Dates are told apart by their ordinals. -/
theorem Date.toOrdinal_inj {d d' : Date} (h : d.toOrdinal = d'.toOrdinal) : d = d' := by
  have hwithin : ∀ e : Date, daysBeforeMonth e.year e.month + e.day
      ≤ daysBeforeMonth e.year 13 ∧ 1 ≤ e.day := by
    intro e
    have hday := e.day_bounds
    have hmonth := @daysBeforeMonth_lt e.year e.month 13
      e.month_bounds.1 (by have := e.month_bounds; omega)
    omega
  rw [toOrdinal_eq, toOrdinal_eq] at h
  have hyear : d.year = d'.year := by
    rcases Nat.lt_trichotomy d.year d'.year with hlt | heq | hlt
    · have := daysBeforeYear_lt d.year_bounds.1 hlt
      have := hwithin d
      have := hwithin d'
      omega
    · exact heq
    · have := daysBeforeYear_lt d'.year_bounds.1 hlt
      have := hwithin d
      have := hwithin d'
      omega
  rw [hyear] at h
  have hmonth : d.month = d'.month := by
    rcases Nat.lt_trichotomy d.month d'.month with hlt | heq | hlt
    · have := @daysBeforeMonth_lt d'.year _ _ d.month_bounds.1 hlt
      have := hyear ▸ d.day_bounds.2
      have := (hwithin d').2
      omega
    · exact heq
    · have := @daysBeforeMonth_lt d'.year _ _ d'.month_bounds.1 hlt
      have := d'.day_bounds.2
      have := (hwithin d).2
      omega
  rw [hmonth] at h
  exact Date.ext hyear hmonth (by omega)

theorem Time.ofDay_inj {t t' : Time} (h : t.ofDay = t'.ofDay) : t = t' := by
  have hminute := t.minute_lt
  have hminute' := t'.minute_lt
  have hsecond := t.second_lt
  have hsecond' := t'.second_lt
  have hmicro := t.microsecond_lt
  have hmicro' := t'.microsecond_lt
  unfold Time.ofDay at h
  apply Time.ext
  case hour => omega
  case minute => omega
  case second => omega
  case microsecond => omega

theorem Time.ofDay_lt (t : Time) : t.ofDay < 86400000000 := by
  have hhour := t.hour_lt
  have hminute := t.minute_lt
  have hsecond := t.second_lt
  have hmicro := t.microsecond_lt
  unfold Time.ofDay
  omega

/-- Of one offset, `datetime`s of one instant show one date and time. -/
theorem DateTime.instant_inj {d d' : DateTime} {o : UtcOffset}
    (h : d.instant o = d'.instant o) : d.date = d'.date ∧ d.time = d'.time := by
  have hday := d.time.ofDay_lt
  have hday' := d'.time.ofDay_lt
  unfold DateTime.instant at h
  exact ⟨Date.toOrdinal_inj (by omega), Time.ofDay_inj (by omega)⟩

-- ==== decimals

theorem digits_mul_ten {n : Nat} (hn : n ≠ 0) : digits (n * 10) = digits n ++ ['0'] := by
  unfold digits
  rw [Nat.toDigits_of_base_le (by decide) (by omega)]
  simp

theorem digits_mul_pow {n : Nat} (hn : n ≠ 0) (k : Nat) :
    digits (n * 10 ^ k) = digits n ++ List.replicate k '0' := by
  induction k with
  | zero => simp
  | succ k ih =>
    have hpow : n * 10 ^ k ≠ 0 := by positivity
    rw [Nat.pow_succ, ← Nat.mul_assoc, digits_mul_ten hpow, ih,
      append_assoc, replicate_succ']

theorem fixedBody_whole {coefficient : Nat} {exponent : Int} (h : 0 ≤ exponent) :
    fixedBody coefficient exponent = digits (coefficient * 10 ^ exponent.toNat) := by
  unfold fixedBody formatFixed
  simp only [h, if_true, Bool.false_eq_true, if_false, nil_append]
  by_cases hzero : coefficient = 0
  · rw [if_pos hzero, hzero, Nat.zero_mul]
  · rw [if_neg hzero, digits_mul_pow hzero]

def decimalPlaces (text : List Char) : Nat := ((text.dropWhile Char.isDigit).drop 1).length

theorem decimalPlaces_point {whole places : List Char} (hwhole : ∀ c ∈ whole, c.isDigit = true) :
    decimalPlaces (whole ++ '.' :: places) = places.length := by
  unfold decimalPlaces
  rw [dropWhile_append_of_pos hwhole]
  simp

theorem fixedBody_places (coefficient : Nat) (exponent : Int) :
    decimalPlaces (fixedBody coefficient exponent) = (-exponent).toNat := by
  by_cases hexponent : 0 ≤ exponent
  · rw [fixedBody_whole hexponent, decimalPlaces,
      dropWhile_eq_nil_iff.mpr fun c hc => isDigit_of_mem_digits hc]
    simp only [drop_nil, length_nil]
    omega
  · unfold fixedBody formatFixed
    simp only [hexponent, if_false, Bool.false_eq_true, nil_append]
    by_cases hlength : (digits coefficient).length ≤ exponent.natAbs
    · rw [if_pos hlength]
      have hpoint := @decimalPlaces_point ['0'] (pad exponent.natAbs coefficient) (by simp)
      have hpad : (pad exponent.natAbs coefficient).length = exponent.natAbs := by
        unfold pad
        rw [length_append, length_replicate]
        omega
      refine hpoint.trans ?_
      omega
    · rw [if_neg hlength, decimalPlaces_point fun c hc =>
        isDigit_of_mem_digits (mem_of_mem_take hc), length_drop]
      omega

theorem formatFixed_head (d : Decimal) : (formatFixed d).head? = some '-' ↔ d.negative = true := by
  have hdigit := (fixedBody_spec d.coefficient d.exponent).1
  rw [formatFixed_sign]
  cases d.negative with
  | true => exact iff_of_true rfl rfl
  | false =>
    apply iff_of_false
    · intro hminus
      have hfirst := hdigit '-' hminus
      exact absurd hfirst (by decide)
    · exact Bool.false_ne_true

/-- The fixed-point texts are one when the decimals are equal, of one sign and
of as many places. -/
theorem formatFixed_eq_iff {d d' : Decimal} : formatFixed d = formatFixed d'
    ↔ d.value = d'.value ∧ d.negative = d'.negative ∧ places d = places d' := by
  constructor
  case mp =>
    intro h
    have hvalue := formatFixed_inj h
    have hsign : d.negative = d'.negative := by
      rw [Bool.eq_iff_iff, ← formatFixed_head, ← formatFixed_head, h]
    rw [formatFixed_sign, formatFixed_sign] at h
    rw [hsign] at h
    have hplaces := congrArg decimalPlaces (append_cancel_left h)
    rw [fixedBody_places, fixedBody_places] at hplaces
    exact ⟨hvalue, hsign, hplaces⟩
  case mpr =>
    intro h
    obtain ⟨hvalue, hsign, hplaces⟩ := h
    rw [formatFixed_sign, formatFixed_sign, hsign]
    congr 1
    unfold Decimal.value at hvalue
    rw [hsign, mul_assoc, mul_assoc] at hvalue
    have hscaled := mul_left_cancel₀ (by split <;> norm_num) hvalue
    unfold places at hplaces
    by_cases hexponent : 0 ≤ d.exponent
    · -- both are whole numbers
      have hexponent' : 0 ≤ d'.exponent := by omega
      rw [fixedBody_whole hexponent, fixedBody_whole hexponent']
      congr 1
      rw [← Int.toNat_of_nonneg hexponent, ← Int.toNat_of_nonneg hexponent',
        zpow_natCast, zpow_natCast] at hscaled
      exact_mod_cast hscaled
    · have heq : d.exponent = d'.exponent := by omega
      rw [heq] at hscaled ⊢
      have hcoefficient := mul_right_cancel₀ (by positivity) hscaled
      rw [Nat.cast_inj.mp hcoefficient]

-- ==== leaves

variable {v w : Value}

theorem LeafAlike.normalize_eq (h : LeafAlike v w) : normalize v = normalize w := by
  cases h with
  | same v => rfl
  | decimal hvalue hsign hplaces =>
    simp only [normalize]
    rw [formatFixed_eq_iff.mpr ⟨hvalue, hsign, hplaces⟩]
  | datetime ho ho' h =>
    obtain ⟨hdate, htime⟩ := DateTime.instant_inj h
    simp only [normalize, ho, ho', hdate, htime]

theorem leafAlike_of_normalize {kind : Scalar} {j : Json} (hv : HasScalar kind v)
    (hw : HasScalar kind w) (hj : normalize v = .ok j) (hj' : normalize w = .ok j) :
    LeafAlike v w := by
  have h := hj.trans hj'.symm
  have hequal := scalar_inj hv hw hj hj'
  cases hequal with
  | decimal hvalue =>
    simp only [normalize, Except.ok.injEq, Json.str.injEq] at h
    obtain ⟨-, hsign, hplaces⟩ := formatFixed_eq_iff.mp (String.ofList_injective h)
    exact .decimal hvalue hsign hplaces
  | @datetime d d' o o' ho ho' hinstant =>
    simp only [normalize, ho, ho', Except.ok.injEq, Json.str.injEq] at h
    obtain ⟨-, h⟩ := isoDate_append_inj (String.ofList_injective h)
    injection h with _ h
    obtain ⟨-, h⟩ := isoTime_append_inj (noPoint_isoOffset o) (noPoint_isoOffset o') h
    have hoffset := isoOffset_inj h
    exact .datetime ho (hoffset ▸ ho') (hoffset ▸ hinstant)
  | _ => first | exact .same _ | cases hv

-- ==== the content hash

/-- Values spelled alike have one hash. Of one shape, in which the members of
each enumeration have values of one shape, values have one hash exactly when
they are spelled alike, if SHA-256 tells their texts apart. -/
theorem content_hash_eq_iff_spelledAlike {s : Shape}
    (hv : HasShape s v) (hw : HasShape s w) (sha256 : String → String)
    (hsha : ∀ t t', canonicalJson v = .ok t → canonicalJson w = .ok t' →
      sha256 t = sha256 t' → t = t') :
    (SpelledAlike v w → ∀ digest, canonicalJsonSha256 sha256 v = .ok digest →
        canonicalJsonSha256 sha256 w = .ok digest)
      ∧ (s.Uniform → (canonicalJsonSha256 sha256 v = canonicalJsonSha256 sha256 w
          ↔ SpelledAlike v w)) := by
  have hcarries : SpelledAlike v w → ∀ digest, canonicalJsonSha256 sha256 v = .ok digest →
        canonicalJsonSha256 sha256 w = .ok digest := by
    intro halike digest h
    refine hash_of_canonical (halike.canonical fun x y hxy j hj => ?_) h
    unfold IsCanonical Shared.canonical at hj ⊢
    rwa [← hxy.normalize_eq]
  refine ⟨hcarries, fun hs => ?_⟩
  obtain ⟨j, hj⟩ := exists_canonical hs hv
  obtain ⟨j', hj'⟩ := exists_canonical hs hw
  constructor
  case mp =>
    intro h
    obtain rfl := canonical_eq_of_hash hsha hj hj' h
    exact canonical_matched leafAlike_of_normalize hs hv hw hj hj'
  case mpr =>
    intro halike
    obtain ⟨digest, hdigest⟩ := exists_hash hj
    rw [hdigest, hcarries halike _ hdigest]

def recordedWeight (first : Bool) (weight : Decimal) (recordedAt : DateTime) :
    Value :=
  .mapping (if first then
      [("weight", .decimal weight), ("recorded_at", .datetime recordedAt)]
    else [("recorded_at", .datetime recordedAt), ("weight", .decimal weight)])

def recordedWeightShape : Shape :=
  .mapping fun key => if key = "weight" then .scalar .decimal
    else .scalar .datetime

def sampleNoon (east : Bool) : DateTime where
  date := ⟨2026, 3, 2, by decide, (by decide : 0 < 3 ∧ 3 ≤ 12), by decide⟩
  time := ⟨if east then 20 else 12, 0, 0, 0, by split <;> decide, Time.zero_minute,
    Time.zero_minute, Time.zero_microsecond⟩
  utcoffset := some ⟨if east then 28800000000 else 0, by split <;> decide⟩

def recordedText (time weight : String) : String :=
  "\x7b\"recorded_at\":\"2026-03-02T" ++ time ++ "\",\"weight\":\"" ++ weight ++ "\"\x7d"

def recordedSha256 (text : String) : String :=
  if text = recordedText "12:00:00+00:00" "1.5" then
    "28e4160921bdac16a5f68027f60aacace7b88df36a2d61d51b4002b5336ed8e9"
  else if text = recordedText "20:00:00+08:00" "1.50" then
    "63754ffa46a840f2360123f9140df93fd895152f188bb03d393532a30f55dcdc"
  else if text = recordedText "12:00:00+00:00" "100" then
    "838681501e31353b6c35c185cff1a77882dac557e394ec05601cca10b70743c0"
  else text

theorem recordedWeight_hasShape (first : Bool) (weight : Decimal) (east : Bool) :
    HasShape recordedWeightShape (recordedWeight first weight (sampleNoon east)) := by
  cases first with
  | true =>
    simp [recordedWeightShape, recordedWeight, HasShape, HasScalar.decimal,
      HasScalar.datetime, sampleNoon]
  | false =>
    simp [recordedWeightShape, recordedWeight, HasShape, HasScalar.decimal,
      HasScalar.datetime, sampleNoon]

/-- A hundred is spelled as ten squared is, so the two have one hash in either
order of the mapping. -/
theorem content_hash_hundred : canonicalJsonSha256 recordedSha256
        (recordedWeight true ⟨false, 1, 2⟩ (sampleNoon false))
      = canonicalJsonSha256 recordedSha256
        (recordedWeight false ⟨false, 100, 0⟩ (sampleNoon false)) := by
  have htext : canonicalJson (recordedWeight true ⟨false, 1, 2⟩ (sampleNoon false))
      = .ok (recordedText "12:00:00+00:00" "100") := by decide +kernel
  have htext' : canonicalJson (recordedWeight false ⟨false, 100, 0⟩ (sampleNoon false))
      = .ok (recordedText "12:00:00+00:00" "100") := by decide +kernel
  have huniform : recordedWeightShape.Uniform := by
    refine .mapping fun key => ?_
    by_cases hkey : key = "weight"
    · rw [if_pos hkey]
      exact .scalar .decimal
    · rw [if_neg hkey]
      exact .scalar .datetime
  obtain ⟨-, hiff⟩ := content_hash_eq_iff_spelledAlike
    (recordedWeight_hasShape true ⟨false, 1, 2⟩ false)
    (recordedWeight_hasShape false ⟨false, 100, 0⟩ false) recordedSha256
    fun t t' ht ht' _ => by
      exact Except.ok.inj (ht.symm.trans ht')
  apply (hiff huniform).mpr
  refine .mapping (by decide) (List.Perm.swap _ _ _) rfl fun p q hpq => ?_
  cases hpq with
  | head =>
    refine .leaf (.decimal ?_ rfl rfl)
    norm_num [Decimal.value]
  | tail _ hpq =>
    cases hpq with
    | head => exact .leaf (.same _)
    | tail _ hpq => cases hpq

/-- A weight of one and a half at noon comes back with another decimal place and
in another time zone: the two are equal, of one shape, and of two hashes. -/
theorem equal_values_of_two_hashes :
    let sent := recordedWeight false ⟨false, 15, -1⟩ (sampleNoon false)
    let returned := recordedWeight false ⟨false, 150, -2⟩ (sampleNoon true)
    HasShape recordedWeightShape sent ∧ HasShape recordedWeightShape returned ∧ PyEq sent returned
      ∧ canonicalJsonSha256 recordedSha256 sent
        = .ok "28e4160921bdac16a5f68027f60aacace7b88df36a2d61d51b4002b5336ed8e9"
      ∧ canonicalJsonSha256 recordedSha256 returned
        = .ok "63754ffa46a840f2360123f9140df93fd895152f188bb03d393532a30f55dcdc" := by
  refine ⟨recordedWeight_hasShape _ _ _, recordedWeight_hasShape _ _ _, ?_,
    by decide +kernel, by decide +kernel⟩
  refine .mapping (Perm.refl _) rfl fun p q hpq => ?_
  cases hpq with
  | head => exact .datetime rfl rfl (by decide)
  | tail _ hpq =>
    cases hpq with
    | head =>
      refine .decimal ?_
      norm_num [Decimal.value]
    | tail _ hpq => cases hpq

end MarketRegimeAlpha.Shared
