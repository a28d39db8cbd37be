/-
What is written is read back: numbers, dates, instants, members of
enumerations and ids.

# Numbers

Two plain numbers with one value are one (`value_inj`), as the exponent
of a coefficient with no trailing zero cannot be lowered. The spelling of
a plain number has no zeros to strip (`decimalText_plain`), so it is the
fixed-point text of the number, and what is read from it has its value.
-/
import MarketRegimeAlpha.MarketData.Values

namespace MarketRegimeAlpha.MarketData

open Lib List
open Shared (Date Time isoDate isoTime formatFixed readFixed readPlain)

variable {platform : Platform}

-- ==== numbers, by value

namespace PlainDecimal

variable {d d' : PlainDecimal}

theorem abs_value (d : PlainDecimal) :
    |d.value| = d.coefficient * (10 : ℚ) ^ d.exponent := by
  have hpos : (0 : ℚ) ≤ d.coefficient * (10 : ℚ) ^ d.exponent := by positivity
  show |(if d.negative then -1 else 1) * (d.coefficient : ℚ) * (10 : ℚ) ^ d.exponent| = _
  rw [mul_assoc, abs_mul, abs_of_nonneg hpos]
  split
  · rw [abs_neg, abs_one, one_mul]
  · rw [abs_one, one_mul]

theorem value_eq_zero : d.value = 0 ↔ d.coefficient = 0 := by
  have hpower : (10 : ℚ) ^ d.exponent ≠ 0 := by positivity
  rw [← abs_eq_zero, abs_value, mul_eq_zero, Nat.cast_eq_zero, or_iff_left hpower]

theorem value_neg_iff (h : d.coefficient ≠ 0) : d.value < 0 ↔ d.negative = true := by
  have hpos : (0 : ℚ) < d.coefficient * (10 : ℚ) ^ d.exponent := by positivity
  show (if d.negative then -1 else 1) * (d.coefficient : ℚ) * (10 : ℚ) ^ d.exponent < 0 ↔ _
  by_cases hneg : d.negative = true
  · rw [if_pos hneg]
    exact iff_of_true (by linarith) hneg
  · rw [if_neg hneg]
    exact iff_of_false (by linarith) hneg

theorem exponent_le (h : |d.value| = |d'.value|) (hd : d.coefficient ≠ 0) :
    d'.exponent ≤ d.exponent := by
  by_contra hlt
  obtain ⟨k, hk⟩ := Int.eq_ofNat_of_zero_le (show 0 ≤ d'.exponent - d.exponent - 1 by omega)
  have hexponent : d'.exponent = d.exponent + (k + 1 : Nat) := by omega
  have hpower : (10 : ℚ) ^ d.exponent ≠ 0 := by positivity
  rw [abs_value, abs_value, hexponent, zpow_add₀ (by norm_num), zpow_natCast,
    mul_comm ((10 : ℚ) ^ d.exponent), ← mul_assoc] at h
  have hcast : (d.coefficient : ℚ) = d'.coefficient * 10 ^ (k + 1) := mul_right_cancel₀ hpower h
  have hcoefficient : d.coefficient = d'.coefficient * 10 ^ (k + 1) := by exact_mod_cast hcast
  have htrailing := d.no_trailing_zero hd
  rw [hcoefficient, pow_succ, ← mul_assoc] at htrailing
  omega

theorem value_inj (h : d.value = d'.value) : d = d' := by
  by_cases hzero : d.coefficient = 0
  · have hzero' : d'.coefficient = 0 := by
      rw [← value_eq_zero, ← h, value_eq_zero]
      exact hzero
    obtain ⟨hneg, hexp⟩ := d.zero_plain hzero
    obtain ⟨hneg', hexp'⟩ := d'.zero_plain hzero'
    apply PlainDecimal.ext
    · rw [hneg, hneg']
    · rw [hzero, hzero']
    · rw [hexp, hexp']
  · have hzero' : d'.coefficient ≠ 0 := by
      rw [ne_eq, ← value_eq_zero, ← h, value_eq_zero]
      exact hzero
    have habs : |d.value| = |d'.value| := by rw [h]
    have hexponent : d.exponent = d'.exponent :=
      le_antisymm (exponent_le habs.symm hzero') (exponent_le habs hzero)
    have hpower : (10 : ℚ) ^ d'.exponent ≠ 0 := by positivity
    apply PlainDecimal.ext
    · rw [Bool.eq_iff_iff, ← value_neg_iff hzero, h, value_neg_iff hzero']
    · rw [abs_value, abs_value, hexponent] at habs
      exact_mod_cast mul_right_cancel₀ hpower habs
    · exact hexponent

end PlainDecimal

theorem value_plain (d : Decimal) : (Decimal.plain d).value = d.value := by
  unfold Decimal.plain
  split
  next hzero =>
    rw [PlainDecimal.value_eq_zero.mpr rfl]
    unfold Decimal.value
    rw [hzero]
    simp
  next hzero =>
    show (if d.negative then -1 else 1) * ((Decimal.stripZeros d.coefficient d.coefficient).1 : ℚ)
      * (10 : ℚ) ^ (d.exponent + (Decimal.stripZeros d.coefficient d.coefficient).2) = d.value
    have hstrip := Decimal.stripZeros_spec d.coefficient d.coefficient
    have hcast : ((Decimal.stripZeros d.coefficient d.coefficient).1 : ℚ)
        * 10 ^ (Decimal.stripZeros d.coefficient d.coefficient).2
        = d.coefficient := by
      exact_mod_cast hstrip
    unfold Decimal.value
    rw [zpow_add₀ (by norm_num), zpow_natCast, ← hcast]
    ring

-- ==== numbers, by spelling

theorem getLast?_digits (n : Nat) : (digits n).getLast? = some (Nat.digitChar (n % 10)) := by
  by_cases hn : n < 10
  · unfold digits
    rw [Nat.toDigits_of_lt_base hn, Nat.mod_eq_of_lt hn]
    rfl
  · unfold digits
    rw [Nat.toDigits_of_base_le (by decide) (by omega)]
    simp

theorem rstrip_eq_self {c : Char} {text : List Char}
    (h : text.getLast? ≠ some c) : rstrip c text = text := by
  unfold rstrip
  cases hreverse : text.reverse with
  | nil => simpa using (reverse_eq_nil_iff.mp hreverse).symm
  | cons last rest =>
    have hlast : text.getLast? = some last := by
      rw [getLast?_eq_head?_reverse, hreverse]
      rfl
    have hne : last ≠ c := fun heq => h (heq ▸ hlast)
    rw [dropWhile_cons_of_neg (by simpa using hne), ← hreverse, reverse_reverse]

theorem getLast?_formatFixed {d : Decimal} (hexp : d.exponent < 0) :
    (formatFixed d).getLast? = some (Nat.digitChar (d.coefficient % 10)) := by
  have hlast := getLast?_digits d.coefficient
  have hne := digits_ne_nil d.coefficient
  unfold formatFixed
  dsimp only
  rw [if_neg (by omega)]
  split
  next hshort =>
    rw [getLast?_append_of_ne_nil _ (by simp), getLast?_cons_cons,
      getLast?_cons_of_ne_nil (by simp [hne]),
      getLast?_append_of_ne_nil _ hne]
    exact hlast
  next hlong =>
    have hdrop : (digits d.coefficient).drop
        ((digits d.coefficient).length - d.exponent.natAbs) ≠ [] := by
      rw [ne_eq, drop_eq_nil_iff]
      omega
    rw [getLast?_append_of_ne_nil _ (by simp), getLast?_append_of_ne_nil _ (by simp),
      getLast?_cons_of_ne_nil hdrop]
    rw [← take_append_drop ((digits d.coefficient).length
      - d.exponent.natAbs) (digits d.coefficient),
      getLast?_append_of_ne_nil _ hdrop] at hlast
    exact hlast

theorem point_notMem {d : Decimal} (hexp : 0 ≤ d.exponent) : '.' ∉ formatFixed d := by
  have hdigits : '.' ∉ digits d.coefficient := by
    intro hmem
    have hdigit := isDigit_of_mem_digits hmem
    cases hdigit
  have hsign : '.' ∉ (if d.negative then ['-'] else []) := by
    split
    · decide
    · decide
  unfold formatFixed
  rw [if_pos hexp]
  split
  · exact not_mem_append hsign hdigits
  · apply not_mem_append hsign
    apply not_mem_append hdigits
    intro hmem
    cases eq_of_mem_replicate hmem

theorem decimalText_plain (d : PlainDecimal) :
    decimalText d = String.ofList (formatFixed d.toDecimal) := by
  unfold decimalText
  by_cases hzero : d.coefficient = 0
  · obtain ⟨hneg, hexp⟩ := d.zero_plain hzero
    unfold PlainDecimal.toDecimal
    rw [hneg, hzero, hexp]
    rfl
  · rw [if_neg hzero]
    dsimp only
    by_cases hpoint : '.' ∈ formatFixed d.toDecimal
    · have hexp : d.toDecimal.exponent < 0 := by
        by_contra hle
        exact point_notMem (by omega) hpoint
      have hlast : (formatFixed d.toDecimal).getLast? = some (Nat.digitChar (d.coefficient % 10)) :=
        getLast?_formatFixed hexp
      have hdigit : ∀ n < 10, n ≠ 0 → Nat.digitChar n ≠ '0' ∧ Nat.digitChar n ≠ '.' := by decide
      obtain ⟨hnot_zero, hnot_point⟩ := hdigit (d.coefficient % 10)
        (Nat.mod_lt _ (by decide)) (d.no_trailing_zero hzero)
      have hzeros := @rstrip_eq_self '0' (formatFixed d.toDecimal)
        (by rw [hlast]; simpa using hnot_zero)
      have hpoints := @rstrip_eq_self '.' (formatFixed d.toDecimal)
        (by rw [hlast]; simp [hnot_point])
      rw [if_pos hpoint, hzeros, hpoints]
    · rw [if_neg hpoint]

/-- What is read has the value that the text spells. -/
theorem value_readDecimal (text : String) : (readDecimal text).value = readFixed text.toList := by
  unfold readDecimal
  rw [value_plain]
  generalize text.toList = chars
  have hplain : ∀ l : List Char, (Nat.ofDigitChars 10
      (l.takeWhile Char.isDigit ++ (l.dropWhile Char.isDigit).drop 1) 0 : ℚ)
      * (10 : ℚ) ^ (-(((l.dropWhile Char.isDigit).drop 1).length : Int))
      = readPlain l := by
    intro l
    unfold readPlain
    rw [zpow_neg, zpow_natCast, ← div_eq_mul_inv]
  unfold Decimal.value
  by_cases hneg : chars.head? = some '-'
  · obtain ⟨rest, rfl⟩ : ∃ rest, chars = '-' :: rest := by
      cases chars with
      | nil => cases hneg
      | cons c rest =>
        injection hneg with hc
        exact ⟨rest, by rw [hc]⟩
    have hread := hplain rest
    simp only [head?_cons, decide_true, if_true, drop_succ_cons,
      drop_zero, readFixed]
    rw [← hread]
    ring
  · have hread := hplain chars
    have hfixed : readFixed chars = readPlain chars := by
      unfold readFixed
      split
      next => exact absurd rfl hneg
      next => rfl
    rw [hfixed, ← hread, decide_eq_false hneg]
    simp only [Bool.false_eq_true, if_false, one_mul, if_neg hneg]

theorem readDecimal_decimalText (d : PlainDecimal) : readDecimal (decimalText d) = d := by
  apply PlainDecimal.value_inj
  rw [value_readDecimal, decimalText_plain, String.toList_ofList, Shared.readFixed_formatFixed]
  rfl

variable {label : String} {d : PlainDecimal}

theorem parse_canonicalDecimal (h : |d.value| < floatOverflow) :
    parseCanonicalDecimal label (canonicalDecimal d) = .ok d := by
  unfold parseCanonicalDecimal canonicalDecimal
  have htext : (Json.str (decimalText d)).text? = some (decimalText d) := rfl
  rw [htext, orRaise_some, ok_bind, readDecimal_decimalText]
  dsimp only
  unfold requireDecimal
  rw [require_true h, ok_bind, require_true (by simp), ok_bind, require_true (by simp), ok_bind]
  rfl

theorem finite_of_requireDecimal {positive nonNegative : Bool}
    {u : Unit} (h : requireDecimal label d positive nonNegative = .ok u) :
    |d.value| < floatOverflow := by
  obtain ⟨_, hfinite, -⟩ := bind_ok.mp h
  exact require_ok.mp hfinite

-- ==== dates and times

theorem readNumber_pad {w n : Nat} : readNumber (pad w n) = n := ofDigitChars_pad w n

theorem day_le (d : Date) : d.day ≤ 31 := by
  have hbounds := d.day_bounds
  have hlast : Shared.daysInMonth d.year d.month ≤ 31 := by
    unfold Shared.daysInMonth
    split
    · split <;> omega
    · split <;> omega
  omega

theorem readDate_isoDate (d : Date) : readDate (isoDate d) = some d := by
  have hyear : (pad 4 d.year).length = 4 := length_pad (by decide) (by have := d.year_bounds; omega)
  have hmonth : (pad 2 d.month).length = 2 :=
    length_pad (by decide) (by have := d.month_bounds; omega)
  have hday : (pad 2 d.day).length = 2 := by
    apply length_pad (by decide)
    have hlast := day_le d
    omega
  have htext : isoDate d = pad 4 d.year ++ ('-' :: (pad 2 d.month ++ ('-' :: pad 2 d.day))) := rfl
  have hreadYear : readNumber ((isoDate d).take 4) = d.year := by
    rw [htext, take_left' hyear, readNumber_pad]
  have hreadMonth : readNumber (((isoDate d).drop 5).take 2) = d.month := by
    rw [htext, show 5 = (pad 4 d.year).length + 1 by omega, drop_length_add_append]
    show readNumber ((pad 2 d.month ++ _).take 2) = _
    rw [take_left' hmonth, readNumber_pad]
  have hreadDay : readNumber (((isoDate d).drop 8).take 2) = d.day := by
    rw [htext, show 8 = (pad 4 d.year).length + (1 + ((pad 2 d.month).length + 1))
      by omega, drop_length_add_append, Nat.add_comm 1, drop_succ_cons,
      drop_length_add_append]
    show readNumber ((pad 2 d.day).take 2) = _
    rw [take_of_length_le hday.le, readNumber_pad]
  unfold readDate
  have hbounds : (1 ≤ d.year ∧ d.year ≤ 9999) ∧ (1 ≤ d.month ∧ d.month ≤ 12)
      ∧ 1 ≤ d.day ∧ d.day ≤ Shared.daysInMonth d.year d.month :=
    ⟨d.year_bounds, d.month_bounds, d.day_bounds⟩
  simp only [hreadYear, hreadMonth, hreadDay, hbounds, and_self, dite_true, if_true]

@[simp] theorem dateFromText_dateText (d : Date) : dateFromText (dateText d) = .ok d := by
  unfold dateFromText dateText
  rw [String.toList_ofList, readDate_isoDate]
  rfl

theorem length_isoDate (d : Date) : (isoDate d).length = 10 := by
  have hyear := d.year_bounds
  have hmonth := d.month_bounds
  have hday := day_le d
  unfold isoDate
  simp only [length_append, length_cons]
  rw [length_pad (by decide) (by omega), length_pad (by decide) (by omega),
    length_pad (by decide) (by omega)]

variable {t : Time}

theorem isoTime_whole (h : t.microsecond = 0) :
    isoTime t = pad 2 t.hour ++ (':' :: (pad 2 t.minute ++ (':' :: pad 2 t.second))) := by
  unfold isoTime Shared.isoFraction
  rw [if_pos h, append_nil]

theorem readTime_isoTime (h : t.microsecond = 0) : readTime (isoTime t) = some t := by
  have hhour : (pad 2 t.hour).length = 2 := length_pad (by decide) (by have := t.hour_lt; omega)
  have hminute : (pad 2 t.minute).length = 2 :=
    length_pad (by decide) (by have := t.minute_lt; omega)
  have hsecond : (pad 2 t.second).length = 2 :=
    length_pad (by decide) (by have := t.second_lt; omega)
  have htext := isoTime_whole h
  have hreadHour : readNumber ((isoTime t).take 2) = t.hour := by
    rw [htext, take_left' hhour, readNumber_pad]
  have hreadMinute : readNumber (((isoTime t).drop 3).take 2) = t.minute := by
    rw [htext, show 3 = (pad 2 t.hour).length + 1 by omega, drop_length_add_append]
    show readNumber ((pad 2 t.minute ++ _).take 2) = _
    rw [take_left' hminute, readNumber_pad]
  have hreadSecond : readNumber (((isoTime t).drop 6).take 2) = t.second := by
    rw [htext, show 6 = (pad 2 t.hour).length + (1 + ((pad 2 t.minute).length
      + 1)) by omega, drop_length_add_append, Nat.add_comm 1,
      drop_succ_cons, drop_length_add_append]
    show readNumber ((pad 2 t.second).take 2) = _
    rw [take_of_length_le hsecond.le, readNumber_pad]
  have hbounds : t.hour < 24 ∧ t.minute < 60 ∧ t.second < 60 :=
    ⟨t.hour_lt, t.minute_lt, t.second_lt⟩
  have htime : ∀ hour_lt minute_lt second_lt microsecond_lt,
      Time.mk t.hour t.minute t.second 0 hour_lt minute_lt second_lt microsecond_lt = t := by
    intro _ _ _ _
    exact Time.ext rfl rfl rfl h.symm
  unfold readTime
  simp only [hreadHour, hreadMinute, hreadSecond, hbounds, and_self, dite_true, htime, if_true]

theorem length_isoTime (h : t.microsecond = 0) : (isoTime t).length = 8 := by
  have hhour := t.hour_lt
  have hminute := t.minute_lt
  have hsecond := t.second_lt
  rw [isoTime_whole h]
  simp only [length_append, length_cons]
  rw [length_pad (by decide) (by omega), length_pad (by decide) (by omega),
    length_pad (by decide) (by omega)]

namespace UtcSecond

theorem ofText_text (t : UtcSecond) : ofText t.text = some t := by
  have hdate : t.text.toList.take 10 = isoDate t.date := by
    unfold text
    rw [String.toList_ofList, take_left' (length_isoDate t.date)]
  have htime : (t.text.toList.drop 11).take 8 = isoTime t.time := by
    unfold text
    rw [String.toList_ofList,
      show 11 = (isoDate t.date).length + 1 by rw [length_isoDate],
      drop_length_add_append]
    exact take_left' (length_isoTime t.whole_second)
  unfold ofText
  rw [hdate, htime, readDate_isoDate, readTime_isoTime t.whole_second]
  dsimp only
  rw [dif_pos t.whole_second, if_pos rfl]

end UtcSecond

@[simp] theorem parse_utcSecond (label : String) (t : UtcSecond) :
    parseUtcSecond label (.str t.text) = .ok t := by
  unfold parseUtcSecond
  have htext : (Json.str t.text).text? = some t.text := rfl
  rw [htext, orRaise_some, ok_bind, UtcSecond.ofText_text]
  rfl

-- ==== ids and enumerations

@[simp] theorem strOf_str (text : String) : strOf platform (.str text) = text := rfl

@[simp] theorem artifactId_idText (id : ArtifactId platform) :
    artifactId platform (idText id) = .ok id :=
  construct_val id

theorem unlessNull_orNull {α : Type} {write : α → Json} {read : Json → Except Raised α}
    {a : Option α} (h : ∀ b ∈ a, read (write b) = .ok b) (hnull : ∀ b, write b ≠ .null) :
    unlessNull read (orNull write a) = .ok a := by
  cases a with
  | none => rfl
  | some b =>
    show unlessNull read (write b) = _
    have hread := h b rfl
    cases hwritten : write b with
    | null => exact absurd hwritten (hnull b)
    | _ =>
      rw [hwritten] at hread
      show some <$> read _ = _
      rw [hread]
      rfl

@[simp] theorem positiveInt_pos {label : String} {n : Nat} (h : 0 < n) :
    positiveInt label (.int n) = .ok n := by
  unfold positiveInt
  dsimp only
  rw [if_pos (by omega), Int.toNat_natCast]

@[simp] theorem textItems_map (texts : List String) (e : Raised) :
    textItems (.arr (texts.map .str)) e = .ok texts := by
  exact mapM_written fun text _ => rfl

@[simp] theorem dictItems_map {α : Type} (fields : α → List (String × Json))
    (l : List α) (e : Raised) :
    dictItems (.arr (l.map fun a => dict (fields a))) e
      = .ok (l.map fun a => sortBy (·.1) (fields a)) := by
  exact mapM_map_ok fun a _ => rfl

-- ==== the content

/-- What was verified has the hash of its payload and the id made of
it. -/
theorem verifyContent_ok {name head contentHash id : String} {payload : Json}
    {u : Unit} : verifyContent platform name head contentHash id payload = .ok u
      ↔ contentHash = platform.canonicalHash payload
        ∧ id = head ++ shortDigest (platform.canonicalHash payload) := by
  unfold verifyContent
  dsimp only
  constructor
  · intro h
    obtain ⟨_, hhash, hid⟩ := bind_ok.mp h
    exact ⟨require_ok.mp hhash, require_ok.mp hid⟩
  · rintro ⟨hhash, hid⟩
    rw [require_true hhash, ok_bind, require_true hid]

end MarketRegimeAlpha.MarketData
