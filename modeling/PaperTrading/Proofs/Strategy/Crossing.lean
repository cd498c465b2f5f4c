import PaperTrading.Proofs.Indicator.Growth
import PaperTrading.Proofs.Number.Sign
import PaperTrading.Proofs.Strategy.Itinerary

/-!
# Crossovers over two bars

A crossover compares the last two samples of two sources.  One bar later, what was the current sample
of a source is its previous one, whether it is read off a line of an indicator, off a candle or
written out.  So a crossing that is seen at a bar has its second comparison as the first comparison of
the next bar, the other way round, and is not seen there again.

* `Market.NextBar`: a market one bar later; `quoteOf_grows` says what an indicator block sees of it.
* `readouts_grow`: the readouts of two runs, block by block.
* `Source.indicator_previous`, `Source.price_previous`, `Source.resolve_previous`: **the previous
  sample of a source is its current sample before the bar.**
* `crossover_not_repeated`: no crossover in one direction holds at two bars in a row.
-/

namespace PaperTrading

open Arith

/-! ### One bar later -/

/-- **A market one bar later:** the same symbols in the same order, each with one more candle. -/
def Market.NextBar {α : Type} (m m' : Market α) : Prop :=
  List.Forall₂ (fun e e' => e'.1 = e.1 ∧ OneMore e.2.history e'.2.history) m.entries m'.entries

variable {α : Type} {market market' : Market α}

namespace Market.NextBar

theorem keys_eq (h : market.NextBar market') : market'.keys = market.keys := by
  have hkeys : ∀ {es es' : List (String × Quote α)},
      List.Forall₂ (fun e e' => e'.1 = e.1 ∧ OneMore e.2.history e'.2.history) es es' →
      es'.map (·.1) = es.map (·.1) := by
    intro es es' h
    induction h with
    | nil => rfl
    | cons he _ ih => rw [List.map_cons, List.map_cons, he.1, ih]
  exact hkeys h

/-- A symbol is in neither market, or the second has one more candle of it. -/
theorem find? (h : market.NextBar market') (symbol : String) :
    (market.find? symbol = none ∧ market'.find? symbol = none) ∨
      ∃ q q', market.find? symbol = some q ∧ market'.find? symbol = some q' ∧
        OneMore q.history q'.history := by
  unfold Table.find?
  rcases find?_forall₂ (fun _ _ he => he.1) h symbol with ⟨hnone, hnone'⟩ | ⟨e, e', he, he', hmore⟩
  · exact .inl ⟨by rw [hnone]; rfl, by rw [hnone']; rfl⟩
  · exact .inr ⟨e.2, e'.2, by rw [he]; rfl, by rw [he']; rfl, hmore.2⟩

end Market.NextBar

/-! ### Sources -/

namespace Source

/-- **The field of the candle before the last one** was that of the last one a bar ago. -/
theorem price_previous (h : market.NextBar market') (address : String) :
    price market' address .previous = price market address .current := by
  unfold price
  cases splitLast address with
  | none => rfl
  | some parts =>
    rcases h.find? parts.1 with ⟨hnone, hnone'⟩ | ⟨q, q', hq, hq', c, hc⟩
    · simp only [Option.bind_eq_bind, Option.bind_some, hnone, hnone', Option.bind_none]
    · simp only [Option.bind_eq_bind, Option.bind_some, hq, hq', hc, beforeLast_append]

end Source

variable [Arith α]

namespace Indicator

/-- The quote that an indicator block reads is that of a symbol of the market. -/
theorem quoteOf_ok {settings : Table (Value α)} {quote : Quote α}
    (h : quoteOf settings market = .ok quote) : ∃ symbol,
      (symbolOf settings market).key = .ok (some symbol) ∧ market.find? symbol = some quote := by
  unfold quoteOf at h
  dsimp only at h
  split at h
  · obtain ⟨found, hfound, h⟩ := bind_ok_iff.mp h
    split at h
    · next q hq =>
      cases h
      obtain rfl := (Option.filter_eq_some_iff.mp hq).1
      simp only [Value.lookUp, bind_ok_iff, pure_ok_iff] at hfound
      obtain ⟨key, hkey, hsome⟩ := hfound
      obtain ⟨symbol, rfl, hfind⟩ := Option.bind_eq_some_iff.mp hsome
      exact ⟨symbol, hkey, hfind⟩
    · cases h
  · cases h

/-- **What an indicator block sees a bar later:** the quote of the same symbol, one candle on. -/
theorem quoteOf_grows (hnext : market.NextBar market') {settings : Table (Value α)}
    {quote quote' : Quote α} (h : quoteOf settings market = .ok quote)
    (h' : quoteOf settings market' = .ok quote') : OneMore quote.history quote'.history := by
  obtain ⟨symbol, hkey, hfind⟩ := quoteOf_ok h
  obtain ⟨symbol', hkey', hfind'⟩ := quoteOf_ok h'
  have hsame : symbolOf settings market' = symbolOf settings market := by
    unfold symbolOf
    rw [hnext.keys_eq]
  rw [hsame, hkey] at hkey'
  cases hkey'
  rcases hnext.find? symbol with ⟨hnone, -⟩ | ⟨q, q', hq, hq', hmore⟩
  · rw [hnone] at hfind
    cases hfind
  · rw [hq] at hfind
    rw [hq'] at hfind'
    cases hfind
    cases hfind'
    exact hmore

end Indicator

namespace Strategy

variable {s : Strategy α} {now now' : Instant} {outcome outcome' : Outcome α} {b : Block α}

/-- The study of a block a bar later has one more value in every line. -/
theorem studyAt_grows (hnext : market.NextBar market') {x x' : Study α}
    (h : studyAt market b = .ok x) (h' : studyAt market' b = .ok x') :
    x.lines.Grows x'.lines := by
  have hquote : ∀ {m : Market α} {y : Study α}, studyAt m b = .ok y →
      ∃ quote, Indicator.quoteOf b.settings m = .ok quote := by
    intro m y hy
    unfold studyAt Indicator.study at hy
    split at hy
    · exact (bind_ok_iff.mp hy).imp fun _ hq => hq.1
    · cases hy
  obtain ⟨quote, hq⟩ := hquote h
  obtain ⟨quote', hq'⟩ := hquote h'
  obtain ⟨candle, hc⟩ := Indicator.quoteOf_grows hnext hq hq'
  exact lines_grow hq hq' hc h h'

/-- **The readouts of two runs a bar apart:** an identifier has one in neither of them, or the lines
behind the second have one more value. -/
theorem readouts_grow (hnext : market.NextBar market') (h : s.run now market = .ok outcome)
    (h' : s.run now' market' = .ok outcome') (id : String) :
    (outcome.studies.find? id = none ∧ outcome'.studies.find? id = none) ∨
      ∃ x x' : Study α, outcome.studies.find? id = some x ∧
        outcome'.studies.find? id = some x' ∧ x.lines.Grows x'.lines := by
  rw [find?_studies h, find?_studies h']
  cases hlast : ((s.blocksOf .indicator).filter (·.id == id)).getLast? with
  | none => exact .inl ⟨rfl, rfl⟩
  | some b =>
    have hb : b ∈ s.blocksOf .indicator := List.mem_of_mem_filter (List.mem_of_getLast? hlast)
    obtain ⟨x, hx⟩ := studyAt_of_run h hb
    obtain ⟨x', hx'⟩ := studyAt_of_run h' hb
    refine .inr ⟨x, x', ?_, ?_, studyAt_grows hnext hx hx'⟩
    · rw [Option.bind_some, hx]; rfl
    · rw [Option.bind_some, hx']; rfl

end Strategy

namespace Source

variable {s : Strategy α} {now now' : Instant} {outcome outcome' : Outcome α}

/-- **The sample of a line before the last one** was the last one a bar ago. -/
theorem indicator_previous (hnext : market.NextBar market') (h : s.run now market = .ok outcome)
    (h' : s.run now' market' = .ok outcome') (address : String) :
    indicator (outcome'.studies.map Study.readout) address .previous =
      indicator (outcome.studies.map Study.readout) address .current := by
  have hgrow := Strategy.readouts_grow hnext h h'
  have hcontains : (outcome'.studies.map Study.readout).contains address =
      (outcome.studies.map Study.readout).contains address := by
    unfold Table.contains
    rw [Table.find?_map, Table.find?_map]
    rcases hgrow address with ⟨hx, hx'⟩ | ⟨x, x', hx, hx', -⟩
    · rw [hx, hx']
    · rw [hx, hx']; rfl
  have hline : lineOf (outcome'.studies.map Study.readout) address =
      lineOf (outcome.studies.map Study.readout) address := by
    unfold lineOf
    rw [hcontains]
  unfold indicator
  rw [hline]
  obtain ⟨block, line⟩ := lineOf (outcome.studies.map Study.readout) address
  dsimp only
  rw [Table.find?_map, Table.find?_map]
  rcases hgrow block with ⟨hx, hx'⟩ | ⟨x, x', hx, hx', hlines⟩
  · rw [hx, hx']; rfl
  · rw [hx, hx']
    exact lineAt_previous hlines line

/-- **The previous sample of a source** is its current sample a bar ago, whatever its type is. -/
theorem resolve_previous (hnext : market.NextBar market') (h : s.run now market = .ok outcome)
    (h' : s.run now' market' = .ok outcome') (type source : Value α) :
    resolve type source market' (outcome'.studies.map Study.readout) .previous =
      resolve type source market (outcome.studies.map Study.readout) .current := by
  unfold resolve
  rw [indicator_previous hnext h h', price_previous hnext]

end Source

/-! ### Crossings -/

/-- The directions that look for one way of crossing only. -/
def oneWay : List String := ["above", "bullish", "below", "bearish"]

/-- **Two crossings in one direction** do not share the samples in the middle, which are the current
ones of the first and the previous ones of the second: the first has them strictly apart. -/
theorem not_crosses_twice {direction : Value Float} (hway : direction.isOneOf oneWay = true)
    {p₁ p₂ c₁ c₂ n₁ n₂ : Float} (h : crosses p₁ p₂ c₁ c₂ direction = true) :
    crosses c₁ c₂ n₁ n₂ direction = false := by
  unfold crosses at h ⊢
  dsimp only at h ⊢
  split at h
  · next habove =>
    rw [if_pos habove]
    obtain ⟨-, hlt⟩ := (Bool.and_eq_true_iff ..).mp h
    have hle : ¬ c₁ ≤ c₂ := fun hle => Double.not_lt_of_le hle (of_decide_eq_true hlt)
    rw [decide_eq_false hle, Bool.false_and]
  · next habove =>
    have hbelow : direction.isOneOf ["below", "bearish"] = true := by
      simp only [oneWay, Value.isOneOf, List.any_cons, List.any_nil, Bool.or_false, Bool.or_eq_true]
        at hway habove ⊢
      tauto
    rw [if_pos hbelow] at h
    rw [if_neg habove, if_pos hbelow]
    obtain ⟨-, hlt⟩ := (Bool.and_eq_true_iff ..).mp h
    have hle : ¬ c₂ ≤ c₁ := fun hle => Double.not_lt_of_le hle (of_decide_eq_true hlt)
    rw [decide_eq_false hle, Bool.false_and]

namespace Condition

/-- **A crossover that holds:** both sources have numbers at both moments, and they cross. -/
theorem crossover_true {settings : Table (Value α)} {readouts : Table (Readout α)}
    (h : crossover settings market readouts = .ok true) : ∃ c₁ c₂ p₁ p₂,
      Source.resolve (Value.get settings "source1Type") (Value.get settings "source1") market
          readouts .current = .ok (some c₁) ∧
      Source.resolve (Value.get settings "source2Type") (Value.get settings "source2") market
          readouts .current = .ok (some c₂) ∧
      Source.resolve (Value.get settings "source1Type") (Value.get settings "source1") market
          readouts .previous = .ok (some p₁) ∧
      Source.resolve (Value.get settings "source2Type") (Value.get settings "source2") market
          readouts .previous = .ok (some p₂) ∧
      crosses p₁ p₂ c₁ c₂ (settingOr settings "direction" "above") = true := by
  unfold crossover at h
  simp only [bind_ok_iff] at h
  obtain ⟨x₁, hx₁, x₂, hx₂, y₁, hy₁, y₂, hy₂, h⟩ := h
  split at h
  · next c₁ c₂ p₁ p₂ =>
    rw [pure_ok_iff] at h
    exact ⟨c₁, c₂, p₁, p₂, hx₁, hx₂, hy₁, hy₂, h⟩
  · rw [pure_ok_iff] at h
    cases h

/-- **No crossover in one direction holds at two bars in a row.**  What is the previous sample of a
source after the second bar is its current sample after the first one, and the samples of the first
crossing are strictly apart, so the second one does not start from them. -/
theorem crossover_not_repeated {s : Strategy Float} {now now' : Instant}
    {market market' : Market Float} (hnext : market.NextBar market') {outcome outcome' : Outcome Float}
    (h : s.run now market = .ok outcome) (h' : s.run now' market' = .ok outcome') :
    (∀ type source : Value Float,
      Source.resolve type source market' (outcome'.studies.map Study.readout) .previous =
        Source.resolve type source market (outcome.studies.map Study.readout) .current) ∧
    ∀ settings : Table (Value Float),
      (settingOr settings "direction" "above").isOneOf oneWay = true →
      ¬ (evaluate "crossover" market (outcome.studies.map Study.readout) settings = .ok true ∧
        evaluate "crossover" market' (outcome'.studies.map Study.readout) settings = .ok true) := by
  have hprevious := Source.resolve_previous hnext h h'
  refine ⟨hprevious, fun settings hway => ?_⟩
  rintro ⟨hfirst, hsecond⟩
  obtain ⟨c₁, c₂, p₁, p₂, hc₁, hc₂, -, -, hcross⟩ := crossover_true hfirst
  obtain ⟨n₁, n₂, q₁, q₂, -, -, hq₁, hq₂, hagain⟩ := crossover_true hsecond
  rw [hprevious, hc₁] at hq₁
  rw [hprevious, hc₂] at hq₂
  cases hq₁
  cases hq₂
  rw [not_crosses_twice hway hcross] at hagain
  cases hagain

/-- A mean of two prices, and the crossover of the price above it. -/
def aboveMean : Table (Value Float) :=
  .ofList [("source1Type", .text "price"), ("source1", .text "SPY.close"),
    ("source2Type", .text "indicator"), ("source2", .text "mean")]

/-- A strategy with the mean of the last two prices. -/
def meanOfTwo : Strategy Float :=
  { Desk.steady [] with
    blocks := [⟨"mean", "indicator", "sma", .ofList [("period", .int 2)], 0, ""⟩] }

/-- The price crosses its mean at the third bar and, although it goes on rising, not at the fourth. -/
theorem crossover_not_repeated_of_rising : ∃ first second : Outcome Float,
    meanOfTwo.run ⟨0⟩ (charted [10.0, 9.0, 12.0]) = .ok first ∧
    meanOfTwo.run ⟨60⟩ (charted [10.0, 9.0, 12.0, 13.0]) = .ok second ∧
    evaluate "crossover" (charted [10.0, 9.0, 12.0]) (first.studies.map Study.readout)
      aboveMean = .ok true ∧
    ¬ evaluate "crossover" (charted [10.0, 9.0, 12.0, 13.0])
      (second.studies.map Study.readout) aboveMean = .ok true := by
  have hnext : (charted [10.0, 9.0, 12.0]).NextBar
      (charted [10.0, 9.0, 12.0, 13.0]) := .cons ⟨rfl, _, rfl⟩ .nil
  have hfires : (meanOfTwo.run ⟨0⟩ (charted [10.0, 9.0, 12.0]) >>= fun first =>
      evaluate "crossover" (charted [10.0, 9.0, 12.0]) (first.studies.map Study.readout)
        aboveMean) = .ok true := by
    rw [← toOption_eq_some_iff]
    decide +kernel
  have hruns : (meanOfTwo.run ⟨60⟩ (charted [10.0, 9.0, 12.0, 13.0])).toOption.isSome := by
    decide +kernel
  obtain ⟨first, hfirst, hcross⟩ := bind_ok_iff.mp hfires
  obtain ⟨second, hsecond⟩ := Option.isSome_iff_exists.mp hruns
  rw [toOption_eq_some_iff] at hsecond
  obtain ⟨-, hnot⟩ := crossover_not_repeated hnext hfirst hsecond
  exact ⟨first, second, hfirst, hsecond, hcross,
    fun hagain => hnot aboveMean (by rfl) ⟨hcross, hagain⟩⟩

end Condition

end PaperTrading
