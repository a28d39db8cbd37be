/-
What a version 1 formula reads, and when its statistics have a value.

# An answer

A formula answers when it returns a result or raises a `ValueError`.
Everything else that an evaluation can raise is a signal, so `Answered`
of a computation comes apart into `Answered` of its parts
(`answered_bind`), and of a statistic into its having a value.
-/
import MarketRegimeAlpha.ResearchQualification.Proofs.RankCorrelation

namespace MarketRegimeAlpha.ResearchQualification.EvaluationFormula

open Lib List

-- ==== answers

/-- It returns, or it raises a `ValueError`. -/
def Answered {α : Type _} (r : Except FormulaError α) : Prop :=
  ∀ e, r = .error e → ∃ message, e = .valueError message

section Answers

variable {α β : Type _} {f : α → Except FormulaError β}

@[simp] theorem answered_ok (a : α) : Answered (.ok a : Except FormulaError α) := nofun

@[simp] theorem answered_pure (a : α) : Answered (pure a : Except FormulaError α) := nofun

@[simp] theorem answered_valueError (message : String) :
    Answered (.error (.valueError message) : Except FormulaError α) := by
  intro e he
  cases he
  exact ⟨message, rfl⟩

@[simp] theorem answered_require {c : Prop} [Decidable c] (message : String) :
    Answered (require c (FormulaError.valueError message)) := by
  intro e he
  rw [require_error] at he
  exact ⟨message, he.2.symm⟩

theorem answered_bind {x : Except FormulaError α} :
    Answered (x >>= f) ↔ Answered x ∧ ∀ a, x = .ok a → Answered (f a) := by
  constructor
  · intro h
    constructor
    · exact fun e he => h e (bind_error.mpr (.inl he))
    · exact fun a ha e he => h e (bind_error.mpr (.inr ⟨a, ha, he⟩))
  · rintro ⟨hx, hf⟩ e he
    rcases bind_error.mp he with he | ⟨a, ha, he⟩
    · exact hx e he
    · exact hf a ha e he

variable {x : Except Signal α}

@[simp] theorem signalled_ok {a : α} : signalled x = .ok a ↔ x = .ok a := by
  cases x with
  | ok b =>
    show Except.ok b = _ ↔ _
    rw [Except.ok.injEq, Except.ok.injEq]
  | error signal => exact ⟨nofun, nofun⟩

@[simp] theorem answered_signalled : Answered (signalled x) ↔ ∃ a, x = .ok a := by
  cases x with
  | ok a => exact ⟨fun _ => ⟨a, rfl⟩, fun _ => answered_ok a⟩
  | error signal =>
    constructor
    · intro h
      obtain ⟨message, hmessage⟩ := h _ rfl
      cases hmessage
    · exact nofun

theorem answered_statistic (hx : ∃ a, x = .ok a)
    (hf : ∀ a, Answered (f a)) : Answered (signalled x >>= f) :=
  answered_bind.mpr ⟨answered_signalled.mpr hx, fun a _ => hf a⟩

end Answers

-- ==== the parameters

section Parameters

variable (formula : EvaluationFormulaDefinition)

def HasParameter (code : String) (value : FormulaParameterValue) : Prop :=
  ∃ item ∈ formula.parameters, item.parameterCode = code ∧ item.value = value

/-- A minimum that lets zero pass. -/
def Lowered (code : String) : Prop := ∃ n : Int, n ≤ 0 ∧ HasParameter formula code (.integer n)

variable {formula} {code : String} {kind : FormulaParameterType}

theorem item_unique {i j : EvaluationFormulaParameter} (hi : i ∈ formula.parameters)
    (hj : j ∈ formula.parameters) (h : i.parameterCode = j.parameterCode) : i = j :=
  inj_on_of_nodup_map formula.codes_unique hi hj h

theorem HasParameter.unique {v w : FormulaParameterValue}
    (hv : HasParameter formula code v) (hw : HasParameter formula code w) :
    v = w := by
  obtain ⟨i, hi, hicode, rfl⟩ := hv
  obtain ⟨j, hj, hjcode, rfl⟩ := hw
  rw [item_unique hi hj (hicode.trans hjcode.symm)]

/-- What `_parameter` finds. -/
theorem parameter_ok {v : FormulaParameterValue} :
    parameter formula code kind = .ok v ↔ HasParameter formula code v ∧ v.type = kind := by
  have hmem : ∀ item, item ∈ formula.parameters.filter (fun item =>
      item.parameterCode = code && item.value.type = kind)
        ↔ item ∈ formula.parameters ∧ item.parameterCode = code ∧ item.value.type = kind := by
    intro item
    rw [mem_filter, Bool.and_eq_true, decide_eq_true_eq, decide_eq_true_eq]
  have hnodup : formula.parameters.Nodup := .of_map _ formula.codes_unique
  unfold parameter
  split
  next item hitem =>
    have hin : item ∈ formula.parameters ∧ item.parameterCode = code ∧ item.value.type = kind := by
      rw [← hmem, hitem]
      exact mem_singleton_self item
    rw [Except.ok.injEq]
    constructor
    · rintro rfl
      exact ⟨⟨item, hin.1, hin.2.1, rfl⟩, hin.2.2⟩
    · rintro ⟨⟨j, hj, hjcode, rfl⟩, -⟩
      rw [item_unique hin.1 hj (hin.2.1.trans hjcode.symm)]
  next hnone =>
    constructor
    · exact nofun
    · rintro ⟨⟨j, hj, hjcode, rfl⟩, hkind⟩
      have hin := (hmem j).mpr ⟨hj, hjcode, hkind⟩
      -- the codes are unique, so that nothing else can be found
      exfalso
      apply hnone j
      apply perm_singleton.mp
      apply (perm_ext_iff_of_nodup (hnodup.filter _) (nodup_singleton j)).mpr
      intro i
      rw [mem_singleton]
      constructor
      · intro hi
        have hi := (hmem i).mp hi
        exact item_unique hi.1 hj (hi.2.1.trans hjcode.symm)
      · rintro rfl
        exact hin

@[simp] theorem parameter_answered : Answered (parameter formula code kind) := by
  unfold parameter
  split
  next => exact answered_ok _
  next => exact answered_valueError _

/-- A reader takes the values of a type apart. -/
structure Reads {α : Type _} (kind : FormulaParameterType) (make : α → FormulaParameterValue)
    (read : FormulaParameterValue → Except FormulaError α) : Prop where
  type_make : ∀ a, (make a).type = kind
  read_make : ∀ a, read (make a) = .ok a
  made : ∀ v, v.type = kind → ∃ a, v = make a

section Reads

variable {α : Type _} {kind : FormulaParameterType} {make : α → FormulaParameterValue}
  {read : FormulaParameterValue → Except FormulaError α}

theorem Reads.ok (h : Reads kind make read) {a : α} : parameter formula code kind >>= read = .ok a
      ↔ HasParameter formula code (make a) := by
  rw [bind_ok]
  constructor
  · rintro ⟨v, hv, ha⟩
    obtain ⟨hhas, htype⟩ := parameter_ok.mp hv
    obtain ⟨b, rfl⟩ := h.made v htype
    rw [h.read_make, Except.ok.injEq] at ha
    rwa [ha] at hhas
  · intro hhas
    exact ⟨_, parameter_ok.mpr ⟨hhas, h.type_make a⟩, h.read_make a⟩

theorem Reads.answered (h : Reads kind make read) :
    Answered (parameter formula code kind >>= read) := by
  apply answered_bind.mpr
  constructor
  · exact parameter_answered
  · intro v hv
    obtain ⟨a, rfl⟩ := h.made v (parameter_ok.mp hv).2
    rw [h.read_make]
    exact answered_ok a

end Reads

theorem reads_integer : Reads .integer .integer fun v =>
    match v with
    | .integer value => return value
    | _ => .error .assertionError where
  type_make _ := rfl
  read_make _ := rfl
  made v hv := by
    cases v with
    | integer value => exact ⟨value, rfl⟩
    | decimal _ => cases hv
    | boolean _ => cases hv
    | text _ => cases hv

theorem reads_decimal : Reads .decimal .decimal fun v =>
    match v with
    | .decimal value => return value
    | _ => .error .assertionError where
  type_make _ := rfl
  read_make _ := rfl
  made v hv := by
    cases v with
    | decimal value => exact ⟨value, rfl⟩
    | integer _ => cases hv
    | boolean _ => cases hv
    | text _ => cases hv

theorem reads_boolean : Reads .boolean .boolean fun v =>
    match v with
    | .boolean value => return value
    | _ => .error .assertionError where
  type_make _ := rfl
  read_make _ := rfl
  made v hv := by
    cases v with
    | boolean value => exact ⟨value, rfl⟩
    | integer _ => cases hv
    | decimal _ => cases hv
    | text _ => cases hv

theorem reads_text : Reads .text .text fun v =>
    match v with
    | .text value => return value
    | _ => .error .assertionError where
  type_make _ := rfl
  read_make _ := rfl
  made v hv := by
    cases v with
    | text value => exact ⟨value, rfl⟩
    | integer _ => cases hv
    | decimal _ => cases hv
    | boolean _ => cases hv

theorem integerParameter_ok {n : Int} : integerParameter formula code = .ok n
    ↔ HasParameter formula code (.integer n) := reads_integer.ok

theorem decimalParameter_ok {x : ℚ} : decimalParameter formula code = .ok x
    ↔ HasParameter formula code (.decimal x) := reads_decimal.ok

theorem booleanParameter_ok {b : Bool} : booleanParameter formula code = .ok b
    ↔ HasParameter formula code (.boolean b) := reads_boolean.ok

theorem textParameter_ok {t : String} : textParameter formula code = .ok t
    ↔ HasParameter formula code (.text t) := reads_text.ok

@[simp] theorem integerParameter_answered :
    Answered (integerParameter formula code) := reads_integer.answered

@[simp] theorem decimalParameter_answered :
    Answered (decimalParameter formula code) := reads_decimal.answered

@[simp] theorem booleanParameter_answered :
    Answered (booleanParameter formula code) := reads_boolean.answered

@[simp] theorem textParameter_answered :
    Answered (textParameter formula code) := reads_text.answered

theorem optionalIntegerParameter_ok {default n : Int} :
    optionalIntegerParameter formula code default = .ok n ↔ HasParameter formula code (.integer n)
        ∨ ((∀ v, ¬ HasParameter formula code v) ∧ n = default) := by
  have habsent : formula.parameters.filter (·.parameterCode = code) = []
      ↔ ∀ v, ¬ HasParameter formula code v := by
    rw [filter_eq_nil_iff]
    constructor
    · rintro hnone v ⟨item, hitem, hcode, -⟩
      exact hnone item hitem (decide_eq_true hcode)
    · intro hnone item hitem hcode
      exact hnone item.value ⟨item, hitem, of_decide_eq_true hcode, rfl⟩
  unfold optionalIntegerParameter
  by_cases hempty : formula.parameters.filter (·.parameterCode = code) = []
  · rw [if_pos hempty, Except.ok.injEq, or_iff_right (habsent.mp hempty _)]
    exact ⟨fun h => ⟨habsent.mp hempty, h.symm⟩, fun h => h.2.symm⟩
  · rw [if_neg hempty, integerParameter_ok, or_iff_left fun h => hempty (habsent.mpr h.1)]

variable {default : Int}

@[simp] theorem optionalIntegerParameter_answered :
    Answered (optionalIntegerParameter formula code default) := by
  unfold optionalIntegerParameter
  split
  next => exact answered_ok _
  next => exact integerParameter_answered

/-- A minimum that is positive by default lets zero pass when it is
lowered. -/
theorem exists_minimum_iff (hdefault : 0 < default) :
    (∃ n ≤ 0, optionalIntegerParameter formula code default = .ok n) ↔ Lowered formula code := by
  apply exists_congr
  intro n
  rw [optionalIntegerParameter_ok]
  constructor
  · rintro ⟨hn, hhas | ⟨-, rfl⟩⟩
    · exact ⟨hn, hhas⟩
    · omega
  · rintro ⟨hn, hhas⟩
    exact ⟨hn, .inl hhas⟩

end Parameters

-- ==== the statistics

section Statistics

variable {K : Type _} [Field K] [LinearOrder K] [IsStrictOrderedRing K] {A : Arithmetic K}
  {values : List K}

omit [IsStrictOrderedRing K] in
theorem exists_mean [CharZero K] : (∃ m, mean A values = .ok m) ↔ values ≠ [] := by
  unfold mean
  rw [Arithmetic.exists_quotient, Nat.cast_ne_zero, Ne, length_eq_zero_iff]

theorem exists_sampleStd (hA : A.Lawful) (values : List K) : ∃ d, sampleStd A values = .ok d := by
  unfold sampleStd
  by_cases hshort : values.length < 2
  · rw [if_pos hshort]
    exact ⟨none, rfl⟩
  · rw [if_neg hshort]
    obtain ⟨m, hm⟩ := (exists_mean (A := A)).mpr
      (length_pos_iff.mp (by omega : 0 < values.length))
    have hcount : (0 : K) < ((values.length - 1 : Nat) : K) := by
      rw [Nat.cast_pos]
      omega
    have hsquares : 0 ≤ A.sum (values.map fun item =>
        A.square (A.round (item - m))) := by
      apply hA.sum_nonneg
      rw [forall_mem_map]
      exact fun item _ => hA.square_nonneg _
    rw [hm, ok_bind]
    dsimp only
    rw [Arithmetic.quotient_ok hcount.ne', ok_bind,
      Arithmetic.sqrt_ok (hA.round_nonneg (div_nonneg hsquares hcount.le))]
    exact ⟨_, rfl⟩

theorem rankSquares_nonneg (hA : A.Lawful) (ranks : List K) (m : K) :
    0 ≤ rankSquares A ranks m := by
  apply hA.sum_nonneg
  rw [forall_mem_map]
  exact fun item _ => hA.square_nonneg _

theorem exists_spearman (hA : A.Lawful) {pairs : List (K × K)} :
    (∃ rho, spearman A pairs = .ok rho) ↔ pairs ≠ [] := by
  constructor
  · rintro ⟨rho, hrho⟩ rfl
    obtain ⟨signal, hsignal⟩ := spearman_nil A
    rw [hsignal] at hrho
    cases hrho
  · intro hne
    have hranks : ∀ values : List K, values.length = pairs.length →
        ∃ m, mean A (midranks A values) = .ok m := by
      intro values hlength
      apply exists_mean.mpr
      intro hnil
      apply hne
      apply eq_nil_of_length_eq_zero
      rw [← hlength, ← length_midranks A values, hnil, length_nil]
    obtain ⟨leftMean, hleft⟩ := hranks (pairs.map (·.1)) (length_map _)
    obtain ⟨rightMean, hright⟩ := hranks (pairs.map (·.2)) (length_map _)
    have hproduct := hA.round_nonneg (mul_nonneg
      (rankSquares_nonneg hA (midranks A (pairs.map (·.1))) leftMean)
      (rankSquares_nonneg hA (midranks A (pairs.map (·.2))) rightMean))
    unfold spearman
    dsimp only
    rw [hleft, ok_bind, hright, ok_bind, Arithmetic.sqrt_ok hproduct, ok_bind]
    split
    next => exact ⟨none, rfl⟩
    next hzero =>
      rw [Arithmetic.quotient_ok hzero]
      exact ⟨_, rfl⟩

theorem exists_annualizedReturn (hA : A.Lawful) (n : Int) :
    (∃ r, annualizedReturn A values n = .ok r) ↔ values ≠ [] := by
  constructor
  · rintro ⟨r, hr⟩ rfl
    -- the wealth is one
    have hwealth : ¬ A.round (1 + cumulative A []) ≤ 0 := by
      rw [not_le]
      apply hA.round_pos
      show 0 < 1 + A.round (1 - 1)
      rw [sub_self, hA.round_zero, add_zero]
      exact one_pos
    obtain ⟨signal, hsignal⟩ := Arithmetic.quotient_zero (A := A) (n : K)
    unfold annualizedReturn at hr
    rw [if_neg hwealth, length_nil, Nat.cast_zero, hsignal] at hr
    cases hr
  · intro hne
    have hlength : (values.length : K) ≠ 0 := by
      rw [Nat.cast_ne_zero]
      exact (length_pos_iff.mpr hne).ne'
    unfold annualizedReturn
    dsimp only
    split
    next => exact ⟨none, rfl⟩
    next =>
      rw [Arithmetic.quotient_ok hlength]
      exact ⟨_, rfl⟩

end Statistics

-- ==== the groups

def Pairless (observations : List FormulaObservation) : Prop :=
  ∃ o ∈ observations, ∀ o' ∈ observations, o'.groupKey = o.groupKey → o'.pair = none

variable {observations : List FormulaObservation}

theorem groups_eq_nil : groups observations = [] ↔ observations = [] := by
  unfold groups
  rw [map_eq_nil_iff]
  constructor
  · intro h
    rw [eq_nil_iff_forall_not_mem] at h ⊢
    exact fun o ho => h o.groupKey (mem_firsts.mpr (mem_map_of_mem ho))
  · rintro rfl
    rfl

theorem mem_groups {observations members : List FormulaObservation} :
    members ∈ groups observations ↔ ∃ o ∈ observations,
      observations.filter (·.groupKey = o.groupKey) = members := by
  unfold groups
  rw [mem_map]
  constructor
  · rintro ⟨key, hkey, rfl⟩
    obtain ⟨o, ho, rfl⟩ := mem_map.mp (mem_firsts.mp hkey)
    exact ⟨o, ho, rfl⟩
  · rintro ⟨o, ho, rfl⟩
    exact ⟨_, mem_firsts.mpr (mem_map_of_mem ho), rfl⟩

theorem pairless_iff :
    Pairless observations ↔ ∃ members ∈ groups observations, pairs members = [] := by
  have hpairs : ∀ key, pairs (observations.filter (·.groupKey = key)) = []
      ↔ ∀ o ∈ observations, o.groupKey = key → o.pair = none := by
    intro key
    unfold pairs
    rw [filterMap_eq_nil_iff]
    simp only [mem_filter, decide_eq_true_eq, and_imp]
  constructor
  · rintro ⟨o, ho, hnone⟩
    exact ⟨_, mem_groups.mpr ⟨o, ho, rfl⟩, (hpairs _).mpr hnone⟩
  · rintro ⟨members, hmembers, hnone⟩
    obtain ⟨o, ho, rfl⟩ := mem_groups.mp hmembers
    exact ⟨o, ho, (hpairs _).mp hnone⟩

theorem Pairless.ne_nil (h : Pairless observations) : observations ≠ [] := by
  obtain ⟨o, ho, -⟩ := h
  exact ne_nil_of_mem ho

end MarketRegimeAlpha.ResearchQualification.EvaluationFormula
