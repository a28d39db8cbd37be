/-
The texts of the scalars determine them.

A date, a time and an offset are read field by field, each padded to its
width. A fixed-point text is read back to the number it spells
(`readFixed_formatFixed`), so decimals of one text are equal, though their
exponents may differ.
-/
import MarketRegimeAlpha.Shared.Shape

namespace MarketRegimeAlpha.Shared

open Lib List

-- ==== dates and times

theorem Date.fits (d : Date) : d.year < 10 ^ 4 ∧ d.month < 10 ^ 2 ∧ d.day < 10 ^ 2 := by
  have hyear := d.year_bounds
  have hmonth := d.month_bounds
  have hday := d.day_bounds.2
  have hdays : daysInMonth d.year d.month ≤ 31 := by
    unfold daysInMonth
    split
    next => split <;> omega
    next => split <;> omega
  omega

variable {rest rest' : List Char} {l : List Char} {n m : Nat}

theorem isoDate_append_inj {d d' : Date}
    (h : isoDate d ++ rest = isoDate d' ++ rest') : d = d' ∧ rest = rest' := by
  obtain ⟨hyear, hmonth, hday⟩ := d.fits
  obtain ⟨hyear', hmonth', hday'⟩ := d'.fits
  unfold isoDate at h
  simp only [append_assoc, cons_append] at h
  obtain ⟨heq, h⟩ := pad_append_inj (by decide) hyear hyear' h
  injection h with _ h
  obtain ⟨heq', h⟩ := pad_append_inj (by decide) hmonth hmonth' h
  injection h with _ h
  obtain ⟨hthird, h⟩ := pad_append_inj (by decide) hday hday' h
  exact ⟨Date.ext heq heq' hthird, h⟩

/-- What follows is not a fraction. -/
def NoPoint (rest : List Char) : Prop := ∀ c ∈ rest.head?, c ≠ '.'

theorem noPoint_nil : NoPoint [] := fun _ hc => nomatch hc

theorem isoFraction_append_inj {m m' : Nat} (hm : m < 1000000) (hm' : m' < 1000000)
    (hrest : NoPoint rest) (hrest' : NoPoint rest')
    (h : isoFraction m ++ rest = isoFraction m' ++ rest') :
    m = m' ∧ rest = rest' := by
  unfold isoFraction at h
  by_cases hzero : m = 0
  · by_cases hzero' : m' = 0
    · rw [if_pos hzero, if_pos hzero'] at h
      exact ⟨hzero.trans hzero'.symm, h⟩
    · rw [if_pos hzero, if_neg hzero', nil_append, cons_append] at h
      exact absurd rfl ( hrest '.' (by rw [h]; rfl))
  · by_cases hzero' : m' = 0
    · rw [if_neg hzero, if_pos hzero', nil_append, cons_append] at h
      exact absurd rfl ( hrest' '.' (by rw [← h]; rfl))
    · rw [if_neg hzero, if_neg hzero', cons_append, cons_append] at h
      injection h with _ h
      exact pad_append_inj (by decide) hm hm' h

theorem isoTime_append_inj {t t' : Time} (hrest : NoPoint rest) (hrest' : NoPoint rest')
    (h : isoTime t ++ rest = isoTime t' ++ rest') : t = t' ∧ rest = rest' := by
  have hhour := t.hour_lt
  have hhour' := t'.hour_lt
  have hminute := t.minute_lt
  have hminute' := t'.minute_lt
  have hsecond := t.second_lt
  have hsecond' := t'.second_lt
  unfold isoTime at h
  simp only [append_assoc, cons_append] at h
  obtain ⟨heq, h⟩ := pad_append_inj (by decide) (by omega) (by omega) h
  injection h with _ h
  obtain ⟨heq', h⟩ := pad_append_inj (by decide) (by omega) (by omega) h
  injection h with _ h
  obtain ⟨hthird, h⟩ := pad_append_inj (by decide) (by omega) (by omega) h
  obtain ⟨hmicro, h⟩ := isoFraction_append_inj t.microsecond_lt t'.microsecond_lt hrest hrest' h
  exact ⟨Time.ext heq heq' hthird hmicro, h⟩

def offsetSeconds (seconds microseconds : Nat) : List Char :=
  if seconds = 0 ∧ microseconds = 0 then []
  else ':' :: (pad 2 seconds ++ isoFraction microseconds)

theorem offsetSeconds_inj {s s' m m' : Nat} (hs : s < 60) (hs' : s' < 60) (hm : m < 1000000)
    (hm' : m' < 1000000) (h : offsetSeconds s m = offsetSeconds s' m') : s = s' ∧ m = m' := by
  unfold offsetSeconds at h
  by_cases hzero : s = 0 ∧ m = 0
  · by_cases hzero' : s' = 0 ∧ m' = 0
    · omega
    · rw [if_pos hzero, if_neg hzero'] at h
      cases h
  · by_cases hzero' : s' = 0 ∧ m' = 0
    · rw [if_neg hzero, if_pos hzero'] at h
      cases h
    · rw [if_neg hzero, if_neg hzero'] at h
      injection h with _ h
      obtain ⟨heq, h⟩ := pad_append_inj (by decide) (by omega) (by omega) h
      have hfraction := congrArg (· ++ []) h
      exact ⟨heq, (isoFraction_append_inj hm hm' noPoint_nil noPoint_nil hfraction).1⟩

theorem isoOffset_inj {o o' : UtcOffset} (h : isoOffset o = isoOffset o') : o = o' := by
  have hday := o.lt_day
  have hday' := o'.lt_day
  unfold isoOffset at h
  injection h with hsign h
  obtain ⟨hhour, h⟩ := pad_append_inj (by decide) (by omega) (by omega) h
  injection h with _ h
  obtain ⟨hminute, h⟩ := pad_append_inj (by decide) (by omega) (by omega) h
  obtain ⟨hsecond, hmicro⟩ := offsetSeconds_inj (by omega) (by omega) (by omega) (by omega) h
  have hmicroseconds : o.microseconds = o'.microseconds := by
    split at hsign
    next =>
      split at hsign
      next => omega
      next => cases hsign
    next =>
      split at hsign
      next => cases hsign
      next => omega
  exact UtcOffset.ext hmicroseconds

theorem noPoint_isoOffset (o : UtcOffset) : NoPoint (isoOffset o) := by
  intro c hc
  unfold isoOffset at hc
  split at hc
  next =>
    cases hc
    decide
  next =>
    cases hc
    decide

theorem TimeDelta.total_inj {t t' : TimeDelta} (h : t.total = t'.total) : t = t' := by
  have hseconds := t.seconds_lt
  have hseconds' := t'.seconds_lt
  have hmicro := t.microseconds_lt
  have hmicro' := t'.microseconds_lt
  unfold TimeDelta.total at h
  apply TimeDelta.ext
  · omega
  · omega
  · omega

-- ==== UUIDs

theorem eq_of_digits {b n m : Nat} (k : Nat) (hn : n < b ^ k)
    (hm : m < b ^ k) (h : ∀ i < k, n / b ^ i % b = m / b ^ i % b) : n = m := by
  induction k generalizing n m with
  | zero =>
    rw [Nat.pow_zero] at hn hm
    omega
  | succ k ih =>
    have hlow := h 0 (by omega)
    rw [Nat.pow_zero, Nat.div_one, Nat.div_one] at hlow
    have hhigh : n / b = m / b := by
      apply ih
      · exact Nat.div_lt_of_lt_mul (by rwa [← Nat.pow_succ'])
      · exact Nat.div_lt_of_lt_mul (by rwa [← Nat.pow_succ'])
      · intro i hi
        have hnext := h (i + 1) (by omega)
        rwa [Nat.pow_succ', ← Nat.div_div_eq_div_mul, ← Nat.div_div_eq_div_mul] at hnext
    rw [← Nat.div_add_mod n b, ← Nat.div_add_mod m b, hhigh, hlow]

def uuidDigits (id : Nat) : List Char :=
  (List.range 32).map fun i => hexDigit (id / 16 ^ (31 - i) % 16)

theorem hexDigit_inj (hn : n < 16) (hm : m < 16) (h : hexDigit n = hexDigit m) : n = m := by
  rw [← Json.hexValue_hexDigit hn, h, Json.hexValue_hexDigit hm]

theorem uuidDigits_inj (hn : n < 16 ^ 32) (hm : m < 16 ^ 32)
    (h : uuidDigits n = uuidDigits m) : n = m := by
  apply eq_of_digits 32 hn hm
  intro i hi
  have hdigit := map_inj_left.mp h (31 - i) (mem_range.mpr (by omega))
  rw [show 31 - (31 - i) = i by omega] at hdigit
  exact hexDigit_inj (Nat.mod_lt _ (by decide)) (Nat.mod_lt _ (by decide)) hdigit

theorem hexDigit_ne_hyphen {n : Nat} (hn : n < 16) : hexDigit n ≠ '-' := by
  have hall : ∀ n < 16, hexDigit n ≠ '-' := by decide
  exact hall n hn

theorem take_append_group {l rest : List Char} {i j : Nat} (hij : i ≤ j) :
    l.take i ++ ((l.take j).drop i ++ rest) = l.take j ++ rest := by
  have hsplit := take_append_drop i (l.take j)
  rw [take_take, Nat.min_eq_left hij] at hsplit
  rw [← append_assoc, hsplit]

theorem uuidText_digits (id : Nat) : (uuidText id).toList.filter (· ≠ '-') = uuidDigits id := by
  have hlength : (uuidDigits id).length = 32 := by simp [uuidDigits]
  have hkeep : ∀ {l : List Char}, l.Sublist (uuidDigits id) → l.filter (· ≠ '-') = l := by
    intro l hl
    rw [filter_eq_self]
    intro c hc
    obtain ⟨i, -, rfl⟩ := mem_map.mp (hl.subset hc)
    exact decide_eq_true (hexDigit_ne_hyphen (Nat.mod_lt _ (by decide)))
  have htext : (uuidText id).toList = ((uuidDigits id).take 8).drop 0
        ++ '-' :: (((uuidDigits id).take 12).drop 8
        ++ '-' :: (((uuidDigits id).take 16).drop 12
        ++ '-' :: (((uuidDigits id).take 20).drop 16
        ++ '-' :: ((uuidDigits id).take 32).drop 20))) := by
    unfold uuidText
    simp [uuidDigits]
  have hgroup : ∀ i j, (((uuidDigits id).take j).drop i).filter (· ≠ '-')
      = ((uuidDigits id).take j).drop i := fun i j =>
    hkeep ((drop_sublist _ _).trans (take_sublist _ _))
  rw [htext]
  have hhyphen : ∀ rest : List Char, ('-' :: rest).filter (· ≠ '-')
      = rest.filter (· ≠ '-') := fun rest =>
    filter_cons_of_neg (by decide)
  simp only [filter_append, hgroup, hhyphen]
  rw [drop_zero, take_append_group (by decide),
    take_append_group (by decide), take_append_group (by decide),
    ← append_nil (List.drop 20 _), take_append_group (by decide),
    append_nil, take_of_length_le hlength.le]

theorem uuidText_inj {n m : Fin (2 ^ 128)} (h : uuidText n = uuidText m) : n = m := by
  have hdigits := congrArg (fun s : String => s.toList.filter (· ≠ '-')) h
  rw [uuidText_digits, uuidText_digits] at hdigits
  exact Fin.ext (uuidDigits_inj n.isLt m.isLt hdigits)

-- ==== decimals

/-- The number that digits with a point spell. -/
def readPlain (text : List Char) : ℚ :=
  let whole := text.takeWhile Char.isDigit
  let places := (text.dropWhile Char.isDigit).drop 1
  Nat.ofDigitChars 10 (whole ++ places) 0 / 10 ^ places.length

def readFixed : List Char → ℚ
  | '-' :: text => -readPlain text
  | text => readPlain text

theorem readPlain_whole (hl : ∀ c ∈ l, c.isDigit = true) :
    readPlain l = Nat.ofDigitChars 10 l 0 := by
  have htake := takeWhile_eq_self_iff.mpr hl
  have hdrop := dropWhile_eq_nil_iff.mpr hl
  unfold readPlain
  rw [htake, hdrop]
  simp

theorem readPlain_point {whole places : List Char} (hwhole : ∀ c ∈ whole, c.isDigit = true) :
    readPlain (whole ++ '.' :: places)
      = Nat.ofDigitChars 10 (whole ++ places) 0 / 10 ^ places.length := by
  unfold readPlain
  rw [takeWhile_append_of_pos hwhole, dropWhile_append_of_pos hwhole]
  simp

theorem readFixed_digit (hl : ∀ c ∈ l.head?, c.isDigit = true) : readFixed l = readPlain l := by
  unfold readFixed
  split
  next text => exact absurd (hl '-' rfl) (by decide)
  next => rfl

theorem head_digits {n : Nat} {rest : List Char} :
    ∀ c ∈ (digits n ++ rest).head?, c.isDigit = true := by
  intro c hc
  obtain ⟨d, l, hdigits⟩ := exists_cons_of_ne_nil (digits_ne_nil n)
  have hd : d.isDigit = true := isDigit_of_mem_digits (n := n) (hdigits ▸ mem_cons_self)
  rw [hdigits] at hc
  cases hc
  exact hd

variable (coefficient : Nat)

def fixedBody (exponent : Int) : List Char :=
  formatFixed ⟨false, coefficient, exponent⟩

theorem formatFixed_sign (d : Decimal) : formatFixed d
    = (if d.negative then ['-'] else []) ++ fixedBody d.coefficient d.exponent := by
  unfold fixedBody formatFixed
  dsimp only
  split
  next => split <;> rfl
  next => split <;> rfl

/-- The unsigned part begins with a digit and is read back to its
number. -/
theorem fixedBody_spec (exponent : Int) :
    (∀ c ∈ (fixedBody coefficient exponent).head?, c.isDigit = true)
      ∧ readPlain (fixedBody coefficient exponent) = coefficient * (10 : ℚ) ^ exponent := by
  unfold fixedBody formatFixed
  dsimp only
  rw [if_neg Bool.false_ne_true, nil_append, nil_append, nil_append, nil_append]
  by_cases hexp : 0 ≤ exponent
  · obtain ⟨k, rfl⟩ := Int.eq_ofNat_of_zero_le hexp
    rw [if_pos hexp]
    by_cases hzero : coefficient = 0
    · rw [if_pos hzero, hzero]
      have hall : ∀ c ∈ digits 0, c.isDigit = true := fun c hc => isDigit_of_mem_digits hc
      refine ⟨fun c hc => hall c (mem_of_mem_head? hc), ?_⟩
      rw [readPlain_whole hall, ofDigitChars_digits]
      simp
    · rw [if_neg hzero]
      refine ⟨head_digits, ?_⟩
      have hall : ∀ c ∈ digits coefficient
          ++ List.replicate (Int.toNat k) '0', c.isDigit = true := by
        intro c hc
        rcases mem_append.mp hc with hc | hc
        · exact isDigit_of_mem_digits hc
        · rw [eq_of_mem_replicate hc]
          rfl
      rw [readPlain_whole hall, Nat.ofDigitChars_append,
        ofDigitChars_digits, Nat.ofDigitChars_replicate_zero]
      push_cast
      rw [Int.toNat_natCast, zpow_natCast, mul_comm]
  · rw [if_neg hexp]
    have hplaces : exponent = -(exponent.natAbs : Int) := by omega
    have hvalue : (10 : ℚ) ^ exponent = 1 / 10 ^ exponent.natAbs := by
      conv_lhs => rw [hplaces, zpow_neg, zpow_natCast]
      rw [one_div]
    rw [hvalue]
    by_cases hlength : (digits coefficient).length ≤ exponent.natAbs
    · rw [if_pos hlength]
      refine ⟨fun c hc => by cases hc; rfl, ?_⟩
      have hread := @readPlain_point ['0'] (pad exponent.natAbs coefficient) (by simp)
      have hpad : (pad exponent.natAbs coefficient).length = exponent.natAbs := by
        unfold pad
        rw [length_append, length_replicate]
        omega
      have hnumber : Nat.ofDigitChars 10
          (['0'] ++ pad exponent.natAbs coefficient) 0 = coefficient := by
        exact ofDigitChars_pad _ _
      rw [hnumber, hpad] at hread
      rw [mul_one_div]
      exact hread
    · rw [if_neg hlength]
      have hsplit := take_append_drop
        ((digits coefficient).length - exponent.natAbs) (digits coefficient)
      have hwhole : ∀ c ∈ (digits coefficient).take
          ((digits coefficient).length - exponent.natAbs), c.isDigit = true :=
        fun c hc => isDigit_of_mem_digits (mem_of_mem_take hc)
      refine ⟨?_, ?_⟩
      · -- the whole part is not empty
        intro c hc
        obtain ⟨k, hk⟩ := Nat.exists_eq_add_of_lt
          (show 0 < (digits coefficient).length - exponent.natAbs by omega)
        obtain ⟨d, l, hdigits⟩ := exists_cons_of_ne_nil (digits_ne_nil coefficient)
        rw [hk, Nat.zero_add, hdigits] at hc
        cases hc
        exact isDigit_of_mem_digits (n := coefficient) (hdigits ▸ mem_cons_self)
      · rw [readPlain_point hwhole, hsplit, ofDigitChars_digits, length_drop, mul_one_div]
        congr 2
        omega

theorem readFixed_formatFixed (d : Decimal) : readFixed (formatFixed d) = d.value := by
  obtain ⟨hdigit, hvalue⟩ := fixedBody_spec d.coefficient d.exponent
  rw [formatFixed_sign]
  unfold Decimal.value
  by_cases hneg : d.negative = true
  · rw [if_pos hneg, if_pos hneg]
    show -readPlain (fixedBody d.coefficient d.exponent) = _
    rw [hvalue]
    ring
  · rw [if_neg hneg, if_neg hneg, nil_append, readFixed_digit hdigit, hvalue]
    ring

theorem formatFixed_inj {d d' : Decimal}
    (h : formatFixed d = formatFixed d') : d.value = d'.value := by
  rw [← readFixed_formatFixed d, h, readFixed_formatFixed]

-- ==== scalars

/-- Scalars of one kind that are normalized to the same are equal. -/
theorem scalar_inj {kind : Scalar} {v w : Value} {j : Json} (hv : HasScalar kind v)
    (hw : HasScalar kind w) (hj : normalize v = .ok j) (hj' : normalize w = .ok j) : PyEq v w := by
  have h := hj.trans hj'.symm
  cases hv with
  | none =>
    cases hw
    exact .none
  | str s =>
    cases hw
    simp only [normalize, Except.ok.injEq, Json.str.injEq] at h
    exact h ▸ .str s
  | int n =>
    cases hw
    simp only [normalize, Except.ok.injEq, Json.int.injEq] at h
    exact h ▸ .int n
  | bool b =>
    cases hw
    simp only [normalize, Except.ok.injEq, Json.bool.injEq] at h
    exact h ▸ .bool b
  | decimal d =>
    cases hw
    simp only [normalize, Except.ok.injEq, Json.str.injEq] at h
    exact .decimal (formatFixed_inj (String.ofList_injective h))
  | uuid id =>
    cases hw
    simp only [normalize, Except.ok.injEq, Json.str.injEq] at h
    exact uuidText_inj h ▸ .uuid id
  | datetime d hd =>
    cases hw with
    | datetime d' hd' =>
      obtain ⟨o, ho⟩ := Option.isSome_iff_exists.mp hd
      obtain ⟨o', ho'⟩ := Option.isSome_iff_exists.mp hd'
      simp only [normalize, ho, ho', Except.ok.injEq, Json.str.injEq] at h
      obtain ⟨hdate, h⟩ := isoDate_append_inj (String.ofList_injective h)
      injection h with _ h
      obtain ⟨htime, h⟩ := isoTime_append_inj (noPoint_isoOffset o) (noPoint_isoOffset o') h
      refine .datetime ho ho' ?_
      unfold DateTime.instant
      rw [hdate, htime, isoOffset_inj h]
  | date d =>
    cases hw
    simp only [normalize, Except.ok.injEq, Json.str.injEq] at h
    have hdate := congrArg (· ++ []) (String.ofList_injective h)
    exact (isoDate_append_inj hdate).1 ▸ .date d
  | time t =>
    cases hw
    simp only [normalize, Except.ok.injEq, Json.str.injEq] at h
    obtain ⟨htime, -⟩ := isoTime_append_inj noPoint_nil noPoint_nil (String.ofList_injective h)
    exact htime ▸ .time t
  | timedelta t =>
    cases hw
    simp only [normalize, Except.ok.injEq, Json.int.injEq] at h
    exact TimeDelta.total_inj h ▸ .timedelta t

end MarketRegimeAlpha.Shared