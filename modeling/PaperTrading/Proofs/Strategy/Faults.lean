import PaperTrading.Proofs.Session.Escape
import PaperTrading.Proofs.Strategy.Crossing

/-!
# What conditions cannot be asked

A condition is meant to be false where it cannot be interpreted.  That holds for most of what its
settings may contain, and fails for the rest: a list or an object in place of a name, an integer that
lies beyond the numbers, a line that lists nothing, and a number of candles that is no integer end
the evaluation.

* `Value.NotKey`, `Value.NotListed`, `Value.NotWhole`: values that cannot be looked for, that list
  nothing, and that have no integer part.
* `Source.LineFault`, `Source.Fault`: **the sources whose number cannot be asked for.**
* `Condition.Fault`: **the settings with which a condition fails,** and the failure.
* `Condition.Understood`: settings all of which can be interpreted.
* `Condition.answered_iff`: a condition is answered exactly where there is no fault, and is false
  unless it is understood.
-/

namespace PaperTrading

open Arith

variable {α : Type}

/-! ### Values -/

namespace Value

/-- **A value that cannot even be looked for.** -/
def NotKey : Value α → Prop
  | list _ | object _ => True
  | _ => False

theorem key_error_iff {v : Value α} {f : Failure} :
    v.key = .error f ↔ v.NotKey ∧ f = .notKey v.typeName := by
  cases v <;> simp [key, NotKey, eq_comm]

/-- Only a text can be found. -/
theorem key_ok {v : Value α} {k : Option String} (h : v.key = .ok k) :
    ¬ v.NotKey ∧ ∀ s, k = some s → v = .text s := by
  cases v <;> simp only [key, Except.ok.injEq, reduceCtorEq] at h <;> subst h <;> simp [NotKey]

theorem exists_key {v : Value α} (h : ¬ v.NotKey) : ∃ k, v.key = .ok k := by
  cases v <;> simp_all [key, NotKey]

/-- **A value that lists nothing.** -/
def NotListed : Value α → Prop
  | null | bool _ | int _ | num _ => True
  | _ => False

theorem items_error_iff {v : Value α} {f : Failure} :
    v.items = .error f ↔ v.NotListed ∧ f = .notIterable v.typeName := by
  cases v <;> simp [items, NotListed, eq_comm]

variable [Arith α]

/-- **A value that has no integer part:** a text that is no integer, a number that is not finite, and
what is neither. -/
def NotWhole : Value α → Prop
  | bool _ | int _ => False
  | num x => NotFinite x
  | text s => ∀ n, readInteger s ≠ .ok n
  | null | list _ | object _ => True

theorem toInteger_error_iff {v : Value α} : (∃ f, v.toInteger = .error f) ↔ v.NotWhole := by
  cases v with
  | bool | int => simp [toInteger, NotWhole]
  | num x =>
    simp only [toInteger, NotWhole, truncated, NotFinite]
    cases isNaN x <;> cases isInfinite x <;> simp
  | text s =>
    simp only [toInteger, NotWhole]
    cases h : readInteger s with
    | ok n => simp
    | error fault => cases fault <;> simp
  | null | list | object => simp [toInteger, NotWhole]

end Value

/-! ### Sources -/

namespace Source

variable [Arith α]

/-- Only an integer beyond the numbers cannot be asked for its number. -/
theorem number?_error_iff {v : Value α} {f : Failure} :
    number? v = .error f ↔ ∃ n, v = .int n ∧ Beyond α n ∧ f = .integerTooLarge := by
  cases v with
  | int n =>
    have hpure : ∀ x : α, (pure (some x) : Except Failure (Option α)) ≠ .error f := fun x h => nomatch h
    simp only [number?, bind_error_iff, hpure, and_false, exists_false, or_false, ofInteger, Beyond,
      Value.int.injEq, exists_eq_left']
    split
    · next h => simp [h]
    · next h => simp [h, eq_comm]
  | null | bool | num | text | list | object => simp [number?]

/-- **The lines that cannot be read at a moment:** the value there is an integer beyond the numbers,
or what is kept as the history of the line lists nothing. -/
inductive LineFault (r : Readout α) (line : Option String) : Moment → Failure → Prop
  | current {n : Int} (h : value r line = .int n) (hn : Beyond α n) :
      LineFault r line .current .integerTooLarge
  | previous {xs : List (Value α)} {n : Int} (hxs : history r line = .ok xs)
      (h : beforeLast xs = some (.int n)) (hn : Beyond α n) :
      LineFault r line .previous .integerTooLarge
  | unlisted {name : String} {fields : List (String × Value α)} {v : Value α}
      (hline : line = some name) (hr : r.history = .object fields)
      (hv : (Table.mk fields).find? name = some v) (h : v.NotListed) :
      LineFault r line .previous (.notIterable v.typeName)

omit [Arith α] in
theorem history_error_iff {r : Readout α} {line : Option String} {f : Failure} :
    history r line = .error f ↔ ∃ name fields v, line = some name ∧ r.history = .object fields ∧
      (Table.mk fields).find? name = some v ∧ v.NotListed ∧ f = .notIterable v.typeName := by
  cases line with
  | none =>
    simp only [history, reduceCtorEq, false_and, exists_false, iff_false]
    split <;> simp
  | some name =>
    simp only [history]
    cases hr : r.history with
    | object fields =>
      dsimp only
      rw [Value.items_error_iff]
      cases hv : (Table.mk fields).find? name with
      | none =>
        refine iff_of_false (fun h => h.1) ?_
        rintro ⟨_, _, v, ⟨rfl⟩, ⟨rfl⟩, hfound, -⟩
        rw [hv] at hfound
        cases hfound
      | some v =>
        constructor
        · rintro ⟨h, rfl⟩
          exact ⟨name, fields, v, rfl, rfl, hv, h, rfl⟩
        · rintro ⟨_, _, v, ⟨rfl⟩, ⟨rfl⟩, hfound, h, rfl⟩
          rw [hv] at hfound
          cases hfound
          exact ⟨h, rfl⟩
    | null | bool | int | num | text | list => simp

theorem lineAt_error_iff {r : Readout α} {line : Option String} {moment : Moment} {f : Failure} :
    lineAt r line moment = .error f ↔
      line.isSome = r.value.isObject ∧ LineFault r line moment f := by
  unfold lineAt
  by_cases hfits : line.isSome = r.value.isObject
  · rw [if_neg (by simpa using hfits)]
    simp only [hfits, true_and]
    cases moment with
    | current =>
      dsimp only
      rw [number?_error_iff]
      constructor
      · rintro ⟨n, h, hn, rfl⟩
        exact .current h hn
      · intro h
        cases h with
        | current h hn => exact ⟨_, h, hn, rfl⟩
    | previous =>
      dsimp only
      rw [bind_error_iff, history_error_iff]
      constructor
      · rintro (⟨name, fields, v, hline, hr, hv, h, rfl⟩ | ⟨xs, hxs, h⟩)
        · exact .unlisted hline hr hv h
        · cases hx : beforeLast xs with
          | none => rw [hx] at h; cases h
          | some v =>
            rw [hx] at h
            obtain ⟨n, rfl, hn, rfl⟩ := number?_error_iff.mp h
            exact .previous hxs hx hn
      · intro h
        cases h with
        | unlisted hline hr hv h => exact .inl ⟨_, _, _, hline, hr, hv, h, rfl⟩
        | previous hxs hx hn =>
          refine .inr ⟨_, hxs, ?_⟩
          rw [hx]
          exact number?_error_iff.mpr ⟨_, rfl, hn, rfl⟩
  · rw [if_pos (by simpa using hfits)]
    simp [hfits]

/-- **The sources whose number cannot be asked for:** an integer beyond the numbers, and a line that
cannot be read.  Prices always can. -/
inductive Fault (readouts : Table (Readout α)) (type source : Value α) (moment : Moment) :
    Failure → Prop
  | number {n : Int} (htype : type = .text "value") (hsource : source = .int n)
      (hn : Beyond α n) : Fault readouts type source moment .integerTooLarge
  | line {r : Readout α} {f : Failure} (htype : type = .text "indicator")
      (hsource : source.isNull = false)
      (hr : readouts.find? (lineOf readouts source.display).1 = some r)
      (hfits : (lineOf readouts source.display).2.isSome = r.value.isObject)
      (h : LineFault r (lineOf readouts source.display).2 moment f) :
      Fault readouts type source moment f

theorem resolve_error_iff {type source : Value α} {market : Market α}
    {readouts : Table (Readout α)} {moment : Moment} {f : Failure} :
    resolve type source market readouts moment = .error f ↔
      Fault readouts type source moment f := by
  unfold resolve
  split
  · next hnull =>
    refine iff_of_false (fun h => nomatch h) fun h => ?_
    cases h with
    | number htype hsource hn => rw [hsource] at hnull; cases hnull
    | line htype hsource => rw [hsource] at hnull; cases hnull
  · next hnull =>
    have hnull : source.isNull = false := by simpa using hnull
    split
    · simp only [indicator]
      cases hr : readouts.find? (lineOf readouts source.display).1 with
      | none =>
        refine iff_of_false (fun h => nomatch h) fun h => ?_
        cases h with
        | number htype => simp at htype
        | line _ _ hfound => rw [hr] at hfound; cases hfound
      | some r =>
        rw [lineAt_error_iff]
        constructor
        · rintro ⟨hfits, h⟩
          exact .line rfl hnull hr hfits h
        · intro h
          cases h with
          | number htype => simp at htype
          | line _ _ hfound hfits h =>
            rw [hr] at hfound
            cases hfound
            exact ⟨hfits, h⟩
    · refine iff_of_false (fun h => nomatch h) fun h => ?_
      cases h with
      | number htype => simp at htype
      | line htype => simp at htype
    · rw [number?_error_iff]
      constructor
      · rintro ⟨n, rfl, hn, rfl⟩
        exact .number rfl rfl hn
      · intro h
        cases h with
        | number _ hsource hn => exact ⟨_, hsource, hn, rfl⟩
        | line htype => simp at htype
    · next hindicator hprice hvalue =>
      refine iff_of_false (fun h => nomatch h) fun h => ?_
      cases h with
      | number htype => exact hvalue htype
      | line htype => exact hindicator htype

end Source

/-! ### Conditions -/

/-- **A sample:** a source with its type, and the moment at which it is read. -/
structure Sample (α : Type) where
  type : Value α
  source : Value α
  moment : Moment

namespace Condition

variable [Arith α] {settings : Table (Value α)} {market : Market α}
  {readouts : Table (Readout α)} {f : Failure}

/-- The number of a sample. -/
def sampled (market : Market α) (readouts : Table (Readout α)) (x : Sample α) :
    Except Failure (Option α) := Source.resolve x.type x.source market readouts x.moment

/-- The samples that a crossover compares, in the order in which they are taken. -/
def samples (settings : Table (Value α)) : List (Sample α) :=
  let first (moment : Moment) : Sample α :=
    ⟨Value.get settings "source1Type", Value.get settings "source1", moment⟩
  let second (moment : Moment) : Sample α :=
    ⟨Value.get settings "source2Type", Value.get settings "source2", moment⟩
  [first .current, second .current, first .previous, second .previous]

/-- The sample that a threshold compares. -/
def measured (settings : Table (Value α)) : Sample α :=
  ⟨Value.get settings "sourceType", Value.get settings "source", .current⟩

/-- A symbol is named that has two candles at least. -/
def Charted (settings : Table (Value α)) (market : Market α) : Prop :=
  ∃ symbol quote, settingOr settings "symbol" "" = .text symbol ∧
    market.find? symbol = some quote ∧ 2 ≤ quote.history.length

/-- A pattern is named. -/
def Named (settings : Table (Value α)) : Prop :=
  ∃ name p, settingOr settings "patternType" "" = .text name ∧ Pattern.ofName? name = some p

/-- **The settings with which a condition fails,** with the failure. -/
inductive Fault (settings : Table (Value α)) (market : Market α) (readouts : Table (Readout α)) :
    ConditionKind → Failure → Prop
  | sample {done later : List (Sample α)} {x : Sample α} {f : Failure}
      (hsplit : samples settings = done ++ x :: later)
      (hdone : ∀ y ∈ done, ∃ n, sampled market readouts y = .ok n)
      (h : Source.Fault readouts x.type x.source x.moment f) :
      Fault settings market readouts .crossover f
  | source {f : Failure}
      (h : Source.Fault readouts (measured settings).type (measured settings).source .current f) :
      Fault settings market readouts .threshold f
  | sign {x : α} (hx : sampled market readouts (measured settings) = .ok (some x))
      (h : (settingOr settings "operator" "").NotKey) :
      Fault settings market readouts .threshold
        (.notKey (settingOr settings "operator" "").typeName)
  | limit {x : α} {n : Int} (hx : sampled market readouts (measured settings) = .ok (some x))
      (hsign : ¬ (settingOr settings "operator" "").NotKey)
      (h : Value.get settings "value" = .int n) (hn : Beyond α n) :
      Fault settings market readouts .threshold .integerTooLarge
  | symbol (h : (settingOr settings "symbol" "").NotKey) :
      Fault settings market readouts .priceAction
        (.notKey (settingOr settings "symbol" "").typeName)
  | pattern (hcandles : Charted settings market)
      (h : (settingOr settings "patternType" "").NotKey) :
      Fault settings market readouts .priceAction
        (.notKey (settingOr settings "patternType" "").typeName)
  | lookback {f : Failure} (hcandles : Charted settings market) (hpattern : Named settings)
      (hgiven : (Value.get settings "lookbackPeriod").isTrue = true)
      (h : (Value.get settings "lookbackPeriod").NotWhole)
      (hf : (Value.get settings "lookbackPeriod").toInteger = .error f) :
      Fault settings market readouts .priceAction f

/-- **Settings all of which can be interpreted.** -/
inductive Understood (settings : Table (Value α)) (market : Market α)
    (readouts : Table (Readout α)) : ConditionKind → Prop
  | crossover (h : ∀ x ∈ samples settings, ∃ n, sampled market readouts x = .ok (some n)) :
      Understood settings market readouts .crossover
  | threshold {x y : α} {sign : String} {c : Comparison}
      (hx : sampled market readouts (measured settings) = .ok (some x))
      (hsign : settingOr settings "operator" "" = .text sign)
      (hc : Comparison.ofName? sign = some c)
      (hy : Source.number? (Value.get settings "value") = .ok (some y)) :
      Understood settings market readouts .threshold
  | priceAction {n : Int} (hcandles : Charted settings market) (hpattern : Named settings)
      (hn : lookbackSetting settings = .ok n) : Understood settings market readouts .priceAction

/-! ### Crossovers -/

theorem crossover_eq : crossover settings market readouts = (do
    let numbers ← (samples settings).mapM (sampled market readouts)
    match numbers with
    | [some c₁, some c₂, some p₁, some p₂] =>
      return crosses p₁ p₂ c₁ c₂ (settingOr settings "direction" "above")
    | _ => return false) := by
  simp only [crossover, samples, sampled, List.mapM_cons, List.mapM_nil, bind_assoc, pure_bind]
  congr! with c₁ c₂ p₁ p₂
  cases c₁ <;> cases c₂ <;> cases p₁ <;> cases p₂ <;> rfl

theorem crossover_error_iff : crossover settings market readouts = .error f ↔
    Fault settings market readouts .crossover f := by
  have hanswer : ∀ numbers : List (Option α), ¬ (match numbers with
      | [some c₁, some c₂, some p₁, some p₂] =>
        return crosses p₁ p₂ c₁ c₂ (settingOr settings "direction" "above")
      | _ => return false : Except Failure Bool) = .error f := by
    intro numbers h
    split at h <;> cases h
  rw [crossover_eq, bind_error_iff, or_iff_left fun ⟨numbers, _, h⟩ => hanswer numbers h,
    mapM_error_iff]
  constructor
  · rintro ⟨done, x, later, hsplit, hdone, hx⟩
    exact .sample hsplit hdone (Source.resolve_error_iff.mp hx)
  · intro h
    cases h with
    | sample hsplit hdone h => exact ⟨_, _, _, hsplit, hdone, Source.resolve_error_iff.mpr h⟩

/-- The samples of a crossover that holds have numbers. -/
theorem understood_of_crossover (h : crossover settings market readouts = .ok true) :
    Understood settings market readouts .crossover := by
  obtain ⟨c₁, c₂, p₁, p₂, hc₁, hc₂, hp₁, hp₂, -⟩ := crossover_true h
  refine .crossover ?_
  simp only [samples, List.forall_mem_cons]
  exact ⟨⟨c₁, hc₁⟩, ⟨c₂, hc₂⟩, ⟨p₁, hp₁⟩, ⟨p₂, hp₂⟩, by simp⟩

/-! ### Thresholds -/

theorem threshold_error_iff : threshold settings market readouts = .error f ↔
    Fault settings market readouts .threshold f := by
  unfold threshold
  dsimp only
  rw [bind_error_iff]
  constructor
  · rintro (h | ⟨number, hx, h⟩)
    · exact .source (Source.resolve_error_iff.mp h)
    · cases number with
      | none => cases h
      | some x =>
        rcases bind_error_iff.mp h with hsign | ⟨sign, hsign, h⟩
        · obtain ⟨hnot, rfl⟩ := Value.key_error_iff.mp hsign
          exact .sign hx hnot
        · rcases bind_error_iff.mp h with hlimit | ⟨limit, -, h⟩
          · obtain ⟨n, hn, hbeyond, rfl⟩ := Source.number?_error_iff.mp hlimit
            exact .limit hx (Value.key_ok hsign).1 hn hbeyond
          · split at h <;> cases h
  · intro h
    cases h with
    | source h => exact .inl (Source.resolve_error_iff.mpr h)
    | sign hx h =>
      exact .inr ⟨_, hx, bind_error_iff.mpr (.inl (Value.key_error_iff.mpr ⟨h, rfl⟩))⟩
    | limit hx hsign hn hbeyond =>
      obtain ⟨sign, hsign⟩ := Value.exists_key hsign
      refine .inr ⟨_, hx, bind_error_iff.mpr (.inr ⟨sign, hsign, ?_⟩)⟩
      exact bind_error_iff.mpr (.inl (Source.number?_error_iff.mpr ⟨_, hn, hbeyond, rfl⟩))

/-- **A threshold that holds** compares two numbers by a known sign. -/
theorem understood_of_threshold (h : threshold settings market readouts = .ok true) :
    Understood settings market readouts .threshold := by
  unfold threshold at h
  dsimp only at h
  obtain ⟨number, hx, h⟩ := bind_ok_iff.mp h
  cases number with
  | none => cases h
  | some x =>
    obtain ⟨sign, hsign, h⟩ := bind_ok_iff.mp h
    obtain ⟨limit, hlimit, h⟩ := bind_ok_iff.mp h
    split at h
    · next c y hc =>
      obtain ⟨name, rfl, hc⟩ := Option.bind_eq_some_iff.mp hc
      exact .threshold hx ((Value.key_ok hsign).2 name rfl) hc hlimit
    · cases h

/-! ### Patterns -/

omit [Arith α] in
/-- What is looked up decides whether there are candles enough. -/
theorem charted_iff {quote : Option (Quote α)}
    (h : (settingOr settings "symbol" "").lookUp market = .ok quote) :
    Charted settings market ↔ 2 ≤ (quote.elim [] Quote.history).length := by
  obtain ⟨k, hk, hquote⟩ := bind_ok_iff.mp h
  obtain rfl : k.bind market.find? = quote := pure_ok_iff.mp hquote
  constructor
  · rintro ⟨symbol, quote, hsymbol, hfind, hlong⟩
    rw [hsymbol] at hk
    cases hk
    rw [Option.bind_some, hfind]
    exact hlong
  · intro hlong
    cases hk' : k.bind market.find? with
    | none =>
      rw [hk'] at hlong
      exact absurd hlong (Nat.not_succ_le_zero 1)
    | some quote =>
      rw [hk'] at hlong
      obtain ⟨symbol, hsome, hfind⟩ := Option.bind_eq_some_iff.mp hk'
      exact ⟨symbol, quote, (Value.key_ok hk).2 symbol hsome, hfind, hlong⟩

omit [Arith α] in
theorem lookUp_error_iff {v : Value α} {t : Market α} :
    v.lookUp t = .error f ↔ v.NotKey ∧ f = .notKey v.typeName := by
  unfold Value.lookUp
  rw [bind_error_iff, Value.key_error_iff]
  exact or_iff_left fun ⟨_, _, h⟩ => nomatch h

/-- The pattern that is looked for, among candles of which the last two are given. -/
def patternAt (settings : Table (Value α)) (before : List (Candle α)) (previous current : Candle α) :
    Except Failure Bool := do
  match (← (settingOr settings "patternType" "").key).bind Pattern.ofName? with
  | none => return false
  | some p => return p.holds (← lookbackSetting settings) before previous current

/-- **A symbol without two candles has no pattern,** and one with two is searched for the pattern that is
named. -/
theorem priceAction_cases {quote : Option (Quote α)}
    (h : (settingOr settings "symbol" "").lookUp market = .ok quote) :
    ¬ Charted settings market ∧ priceAction settings market = .ok false ∨
      Charted settings market ∧ ∃ before previous current,
        priceAction settings market = patternAt settings before previous current := by
  rw [charted_iff h, ← List.length_reverse]
  unfold priceAction
  simp only [h, Except.bind, bind]
  cases (quote.elim [] Quote.history).reverse with
  | nil => exact .inl ⟨by simp, rfl⟩
  | cons current candles => cases candles with
    | nil => exact .inl ⟨by simp, rfl⟩
    | cons previous earlier => exact .inr ⟨by simp, _, previous, current, rfl⟩

theorem lookbackSetting_error_iff : lookbackSetting settings = .error f ↔
    (Value.get settings "lookbackPeriod").isTrue = true ∧
      (Value.get settings "lookbackPeriod").toInteger = .error f := by
  unfold lookbackSetting Value.orElse
  split
  · next hgiven => simp [hgiven]
  · next hgiven => simp [hgiven, Value.toInteger]

theorem patternAt_error_iff {before : List (Candle α)} {previous current : Candle α} :
    patternAt settings before previous current = .error f ↔
      (settingOr settings "patternType" "").NotKey ∧
        f = .notKey (settingOr settings "patternType" "").typeName ∨
      Named settings ∧ (Value.get settings "lookbackPeriod").isTrue = true ∧
        (Value.get settings "lookbackPeriod").toInteger = .error f := by
  unfold patternAt
  rw [bind_error_iff, Value.key_error_iff]
  refine or_congr_right ?_
  constructor
  · rintro ⟨k, hk, h⟩
    split at h
    · cases h
    · next p hp =>
      obtain ⟨name, rfl, hp⟩ := Option.bind_eq_some_iff.mp hp
      rcases bind_error_iff.mp h with h | ⟨n, -, h⟩
      · exact ⟨⟨name, p, (Value.key_ok hk).2 name rfl, hp⟩, lookbackSetting_error_iff.mp h⟩
      · cases h
  · rintro ⟨⟨name, p, hname, hp⟩, hlookback⟩
    refine ⟨some name, by rw [hname]; rfl, ?_⟩
    rw [Option.bind_some, hp]
    exact bind_error_iff.mpr (.inl (lookbackSetting_error_iff.mpr hlookback))

theorem priceAction_error_iff : priceAction settings market = .error f ↔
    Fault settings market readouts .priceAction f := by
  cases hquote : (settingOr settings "symbol" "").lookUp market with
  | error g =>
    have hfails : priceAction settings market = .error g := by
      unfold priceAction
      exact bind_error_iff.mpr (.inl hquote)
    obtain ⟨hsymbol, rfl⟩ := lookUp_error_iff.mp hquote
    rw [hfails, Except.error.injEq]
    constructor
    · rintro rfl
      exact .symbol hsymbol
    · intro h
      -- nothing is charted under a symbol that cannot be looked for
      have hnot : ¬ Charted settings market := by
        rintro ⟨symbol, _, htext, -⟩
        rw [htext] at hsymbol
        exact hsymbol
      cases h with
      | symbol => rfl
      | pattern hcandles | lookback hcandles => exact absurd hcandles hnot
  | ok quote =>
    have hsymbol : ¬ (settingOr settings "symbol" "").NotKey := fun hsymbol => by
      rw [lookUp_error_iff.mpr ⟨hsymbol, rfl⟩] at hquote
      cases hquote
    rcases priceAction_cases hquote with ⟨hnot, heq⟩ | ⟨hcandles, before, previous, current, heq⟩
    · rw [heq]
      refine iff_of_false (fun h => nomatch h) fun h => ?_
      cases h with
      | symbol h => exact hsymbol h
      | pattern hcandles | lookback hcandles => exact hnot hcandles
    · rw [heq, patternAt_error_iff]
      constructor
      · rintro (⟨hpattern, rfl⟩ | ⟨hnamed, hgiven, hf⟩)
        · exact .pattern hcandles hpattern
        · exact .lookback hcandles hnamed hgiven (Value.toInteger_error_iff.mp ⟨f, hf⟩) hf
      · intro h
        cases h with
        | symbol h => exact absurd h hsymbol
        | pattern _ h => exact .inl ⟨h, rfl⟩
        | lookback _ hnamed hgiven _ hf => exact .inr ⟨hnamed, hgiven, hf⟩

/-- **A pattern that is seen** is a known one, on two candles at least. -/
theorem understood_of_priceAction (h : priceAction settings market = .ok true) :
    Understood settings market readouts .priceAction := by
  obtain ⟨quote, hquote, -⟩ := bind_ok_iff.mp h
  rcases priceAction_cases hquote with ⟨-, heq⟩ | ⟨hcandles, before, previous, current, heq⟩
  · rw [heq] at h
    cases h
  · rw [heq] at h
    obtain ⟨k, hk, h⟩ := bind_ok_iff.mp h
    split at h
    · cases h
    · next p hp =>
      obtain ⟨name, rfl, hp⟩ := Option.bind_eq_some_iff.mp hp
      obtain ⟨n, hn, -⟩ := bind_ok_iff.mp h
      exact .priceAction hcandles ⟨name, p, (Value.key_ok hk).2 name rfl, hp⟩ hn

/-! ### All kinds -/

theorem evaluate_name (kind : ConditionKind) : evaluate kind.name market readouts settings =
    holds kind settings market readouts := by
  unfold evaluate
  rw [kind.ofName?_name]

/-- **When a condition is answered.**  A condition of a known kind has a truth value exactly where
there is no fault, and fails with the fault where there is one.  It is true only if all of its settings
can be interpreted, so anything else that cannot be makes it false. -/
theorem answered_iff (kind : ConditionKind) (settings : Table (Value α)) (market : Market α)
    (readouts : Table (Readout α)) :
    ((∃ b, evaluate kind.name market readouts settings = .ok b) ↔
      ∀ f, ¬ Fault settings market readouts kind f) ∧
    (∀ f, evaluate kind.name market readouts settings = .error f ↔
      Fault settings market readouts kind f) ∧
    (¬ Understood settings market readouts kind →
      ∀ b, evaluate kind.name market readouts settings = .ok b → b = false) := by
  rw [evaluate_name]
  have hfails : ∀ f, holds kind settings market readouts = .error f ↔
      Fault settings market readouts kind f := by
    intro f
    cases kind with
    | crossover => exact crossover_error_iff
    | threshold => exact threshold_error_iff
    | priceAction => exact priceAction_error_iff
  refine ⟨?_, hfails, ?_⟩
  · simp only [← hfails]
    cases holds kind settings market readouts <;> simp
  · intro hnot b hb
    cases b with
    | false => rfl
    | true =>
      refine absurd ?_ hnot
      cases kind with
      | crossover => exact understood_of_crossover hb
      | threshold => exact understood_of_threshold hb
      | priceAction => exact understood_of_priceAction hb

/-- One compared with zero. -/
def oneAndZero (operator : Value Float) : Table (Value Float) :=
  .ofList [("sourceType", .text "value"), ("source", .int 1), ("operator", operator),
    ("value", .int 0)]

/-- One is above zero, it is not "over" zero, and a list cannot be looked for among the signs. -/
theorem answered_of_oneAndZero :
    (evaluate "threshold" .empty .empty (oneAndZero (.text ">")) = .ok true ∧
      Understood (oneAndZero (.text ">")) .empty .empty .threshold) ∧
    (evaluate "threshold" .empty .empty (oneAndZero (.text "over")) = .ok false ∧
      ∀ f, ¬ Fault (oneAndZero (.text "over")) .empty .empty .threshold f) ∧
    (evaluate "threshold" .empty .empty (oneAndZero (.list [])) = .error (.notKey "list") ∧
      Fault (oneAndZero (.list [])) .empty .empty .threshold (.notKey "list")) := by
  have habove : evaluate "threshold" .empty .empty (oneAndZero (.text ">")) = .ok true := by
    rw [← toOption_eq_some_iff]
    decide +kernel
  have hover : evaluate "threshold" .empty .empty (oneAndZero (.text "over")) = .ok false := by
    rw [← toOption_eq_some_iff]
    decide +kernel
  have hlist : evaluate "threshold" .empty .empty (oneAndZero (.list [])) =
      .error (.notKey "list") := by rfl
  obtain ⟨-, -, hfalse⟩ := answered_iff .threshold (oneAndZero (.text ">")) .empty .empty
  obtain ⟨hanswered, -, -⟩ := answered_iff .threshold (oneAndZero (.text "over")) .empty .empty
  obtain ⟨-, hfails, -⟩ := answered_iff .threshold (oneAndZero (.list [])) .empty .empty
  refine ⟨⟨habove, ?_⟩, ⟨hover, hanswered.mp ⟨false, hover⟩⟩, hlist, (hfails _).mp hlist⟩
  by_contra hnot
  exact absurd (hfalse hnot true habove) (by decide)

/-- A pattern that is to look back "soon". -/
def lookingBackSoon : Table (Value Float) :=
  .ofList [("symbol", .text "SPY"), ("patternType", .text "higher_close"),
    ("lookbackPeriod", .text "soon")]

/-- **A lookback that is no integer ends the evaluation,** although the pattern would not use it. -/
theorem unanswered_of_lookback :
    evaluate "price_action" (charted [10.0, 11.0]) .empty lookingBackSoon =
      .error (.unreadableInteger "soon") ∧
    ¬ ∃ b, evaluate "price_action" (charted [10.0, 11.0]) .empty lookingBackSoon = .ok b := by
  have hfails : evaluate "price_action" (charted [10.0, 11.0]) .empty lookingBackSoon =
      .error (.unreadableInteger "soon") := by rfl
  refine ⟨hfails, ?_⟩
  rw [hfails]
  rintro ⟨b, hb⟩
  cases hb

end Condition

end PaperTrading
