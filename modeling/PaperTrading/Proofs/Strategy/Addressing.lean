import PaperTrading.Proofs.Indicator.Existence
import PaperTrading.Proofs.Strategy.Itinerary

/-!
# Where an address leads

An address is divided at its last dot, but block identifiers and symbols may contain dots of their own,
and an address that is the identifier of a block is never divided.  After a run, every block and every
line of a block is reached all the same: the identifier of a block with one series leads to that series,
and an identifier with the name of a line behind it leads to that line, unless it is an identifier
itself.

* `Moment.entry`, `Moment.reach`: the entry of a series at a moment, and how many entries that takes.
* `Lines.Addressable`: lines none of which is empty, under different names without dots;
  `addressable_of_run` says that all studies of a run have such lines.
* `Source.lineOf_dotted`, `Source.splitLast_dotted`: how an address is divided.
* `Source.fieldAt`: a price of a symbol at a moment, which the symbol with the field behind it reads.
* `Source.Reads`, `Source.Leads`: **what is read of a series, and where the addresses of a block lead.**
* `sources_faithful`: the addresses of a run and of a market lead where they say.
-/

namespace PaperTrading

variable {α : Type}

/-! ### Moments -/

/-- **The entry of a series at a moment:** the last one, or the one before it. -/
def Moment.entry {β : Type} : Moment → List β → Option β
  | .current, xs => xs.getLast?
  | .previous, xs => xs.dropLast.getLast?

/-- How many entries a series needs to have one at a moment. -/
def Moment.reach : Moment → Nat
  | .current => 1
  | .previous => 2

theorem Moment.entry_eq_none_iff {β : Type} (m : Moment) (xs : List β) :
    m.entry xs = none ↔ xs.length < m.reach := by
  cases m with
  | current => simp [entry, reach]
  | previous =>
    rw [entry, List.getLast?_eq_none_iff, ← List.length_eq_zero_iff, List.length_dropLast, reach]
    omega

/-! ### Lines that can be addressed -/

/-- **Lines that can be addressed:** none is empty, and their names are different and have no dots. -/
def Lines.Addressable : Lines α → Prop
  | .single xs => xs ≠ []
  | .named hs => (hs.map (·.1)).Nodup ∧ ∀ h ∈ hs, h.1 ≠ "" ∧ '.' ∉ h.1.toList ∧ h.2 ≠ []

section Series

variable [Arith α] {prices : List α} {period : Int}

namespace Indicator

theorem sma_ne_nil {xs : List α} (h : sma prices period = .ok xs) : xs ≠ [] := by
  have hlength := length_sma h
  simp only [sma, bind_ok_iff, checkEnough_ok_iff, exists_const] at h
  have henough := h.1
  rw [← List.length_pos_iff]
  omega

theorem smooth_ne_nil (k previous : α) (ps : List α) : smooth k previous ps ≠ [] := by
  cases ps <;> simp [smooth]

theorem ema_ne_nil {xs : List α} (h : ema prices period = .ok xs) : xs ≠ [] := by
  simp only [ema, bind_ok_iff, pure_ok_iff] at h
  obtain ⟨-, -, k, -, first, -, rfl⟩ := h
  exact smooth_ne_nil k first _

theorem rsi_ne_nil {xs : List α} (h : rsi prices period = .ok xs) : xs ≠ [] := by
  simp only [rsi, bind_ok_iff] at h
  obtain ⟨-, -, gain, -, loss, -, weight, -, steps, -, h⟩ := h
  have hlength := length_strengths h
  rw [← List.length_pos_iff]
  omega

/-- No line of a convergence is empty: the signal line is a mean of the first one, and the third one is
as long as the signal line. -/
theorem macd_ne_nil {fast slow signal : Int} (hf : 0 < fast) (hs : 0 < slow) (hn : 0 < signal)
    {m : Macd α} (h : macd prices fast slow signal = .ok m) :
    m.macd ≠ [] ∧ m.signal ≠ [] ∧ m.histogram ≠ [] := by
  obtain ⟨-, hsignal, hhistogram⟩ := length_macd hf hs hn h
  simp only [macd, bind_ok_iff, pure_ok_iff] at h
  obtain ⟨-, -, fasts, -, slows, -, signals, hsignals, rfl⟩ := h
  have hpos := List.length_pos_iff.mpr (ema_ne_nil hsignals)
  dsimp only at hsignal hhistogram ⊢
  simp only [← List.length_pos_iff]
  omega

theorem bollinger_ne_nil {deviations : α} {b : Bands α}
    (h : bollinger prices period deviations = .ok b) :
    b.middle ≠ [] ∧ b.upper ≠ [] ∧ b.lower ≠ [] := by
  obtain ⟨-, hupper, hlower⟩ := length_bollinger h
  simp only [bollinger, bind_ok_iff, pure_ok_iff] at h
  obtain ⟨-, -, middle, hmiddle, widths, -, rfl⟩ := h
  have hpos := List.length_pos_iff.mpr (sma_ne_nil hmiddle)
  dsimp only at hupper hlower ⊢
  simp only [← List.length_pos_iff]
  omega

/-- The lines of every kind can be addressed. -/
theorem addressable_of_compute {kind : IndicatorKind} {settings : Table (Value α)}
    {time : Option String} {x : Study α} (h : compute kind prices settings time = .ok x) :
    x.lines.Addressable := by
  cases kind with
  | sma =>
    simp only [compute, bind_ok_iff, pure_ok_iff] at h
    obtain ⟨n, -, xs, hxs, rfl⟩ := h
    exact sma_ne_nil hxs
  | ema =>
    simp only [compute, bind_ok_iff, pure_ok_iff] at h
    obtain ⟨n, -, xs, hxs, rfl⟩ := h
    exact ema_ne_nil hxs
  | rsi =>
    simp only [compute, bind_ok_iff, pure_ok_iff] at h
    obtain ⟨n, -, xs, hxs, -, -, -, -, rfl⟩ := h
    exact rsi_ne_nil hxs
  | macd =>
    simp only [compute, bind_ok_iff, pure_ok_iff] at h
    obtain ⟨fast, hf, slow, hs, signal, hn, m, hm, rfl⟩ := h
    obtain ⟨hmacd, hsignal, hhistogram⟩ := macd_ne_nil (periodSetting_pos (by decide) hf)
      (period_pos hs) (periodSetting_pos (by decide) hn) hm
    refine ⟨by simp, ?_⟩
    simp [hmacd, hsignal, hhistogram]
  | bollinger =>
    simp only [compute, bind_ok_iff, pure_ok_iff] at h
    obtain ⟨n, -, width, -, bands, hb, rfl⟩ := h
    obtain ⟨hmiddle, hupper, hlower⟩ := bollinger_ne_nil hb
    refine ⟨by simp, ?_⟩
    simp [hmiddle, hupper, hlower]

end Indicator

/-- **All studies of a run can be addressed.** -/
theorem Strategy.addressable_of_run {s : Strategy α} {now : Instant} {market : Market α}
    {outcome : Outcome α} (h : s.run now market = .ok outcome) {id : String} {x : Study α}
    (hx : outcome.studies.find? id = some x) : x.lines.Addressable := by
  rw [find?_studies h] at hx
  obtain ⟨b, -, hb⟩ := Option.bind_eq_some_iff.mp hx
  rw [toOption_eq_some_iff, studyAt, Indicator.study] at hb
  split at hb
  · simp only [Indicator.studyOf, bind_ok_iff] at hb
    obtain ⟨quote, -, field, -, least, -, -, -, hb⟩ := hb
    exact Indicator.addressable_of_compute hb
  · cases hb

end Series

namespace Source

/-! ### Reading a line -/

theorem beforeLast_eq {β : Type} (xs : List β) : beforeLast xs = xs.dropLast.getLast? := by
  induction xs using List.reverseRecOn with
  | nil => rfl
  | append_singleton ys y _ => rw [beforeLast_append, List.dropLast_concat]

section Line

variable [Arith α]

/-- The entry before the last one of a series, as a number. -/
theorem read_previous (xs : List α) :
    (match beforeLast (xs.map Value.num) with
      | some v => number? v
      | none => return none) = .ok (Moment.previous.entry xs) := by
  rw [beforeLast_eq, ← List.map_dropLast, List.getLast?_map, Moment.entry]
  cases xs.dropLast.getLast? <;> rfl

/-- A study of one series is read without a name only. -/
theorem lineAt_single (xs : List α) (m : Moment) :
    lineAt ⟨(Lines.single xs).value, (Lines.single xs).history⟩ none m = .ok (m.entry xs) := by
  cases m with
  | current =>
    simp only [lineAt, isObject_single]
    exact number?_latest xs
  | previous =>
    simp only [lineAt, isObject_single]
    exact read_previous xs

theorem lineAt_single_some (xs : List α) (name : String) (m : Moment) :
    lineAt ⟨(Lines.single xs).value, (Lines.single xs).history⟩ (some name) m = .ok none := by
  simp [lineAt, isObject_single]

/-- A study with named lines is not read without a name. -/
theorem lineAt_named_none (hs : List (String × List α)) (m : Moment) :
    lineAt ⟨(Lines.named hs).value, (Lines.named hs).history⟩ none m = .ok none := by
  simp [lineAt, Lines.value, Value.isObject]

theorem lineAt_named {hs : List (String × List α)} {name : String} {xs : List α} (hn : name ≠ "")
    (hfind : (Table.mk hs).find? name = some xs) (m : Moment) :
    lineAt ⟨(Lines.named hs).value, (Lines.named hs).history⟩ (some name) m =
      .ok (m.entry xs) := by
  have hread : ((some name).isSome != (Lines.named hs).value.isObject) = false := rfl
  obtain ⟨h, hh, rfl⟩ := Option.map_eq_some_iff.mp hfind
  cases m with
  | current =>
    simp only [lineAt, hread, Bool.false_eq_true, if_false, value_named _ _ hn, hh]
    exact number?_latest h.2
  | previous =>
    simp only [lineAt, hread, Bool.false_eq_true, if_false, history_named, hh]
    exact read_previous h.2

end Line

/-! ### Dividing an address -/

theorem splitLast_dotted (a : String) {b : String} (h : '.' ∉ b.toList) :
    splitLast (a ++ "." ++ b) = some (a, b) := by
  have hchars : (a ++ "." ++ b).toList = a.toList ++ '.' :: b.toList := by simp
  rw [splitLast, hchars, splitLastChars_append h]
  simp

/-- An address that is a block is not divided. -/
theorem lineOf_of_contains {readouts : Table (Readout α)} {b : String}
    (h : readouts.contains b = true) : lineOf readouts b = (b, none) := by
  rw [lineOf, if_pos h]

/-- Any other address is divided at its last dot. -/
theorem lineOf_dotted {readouts : Table (Readout α)} {b name : String} (hname : '.' ∉ name.toList)
    (h : readouts.contains (b ++ "." ++ name) = false) :
    lineOf readouts (b ++ "." ++ name) = (b, some name) := by
  rw [lineOf, if_neg (by simp [h]), splitLast_dotted b hname]

/-! ### Prices -/

/-- **The field of the candle of a symbol at a moment,** if there is one. -/
def fieldAt (market : Market α) (symbol : String) (field : PriceField) (m : Moment) : Option α :=
  (market.find? symbol).bind fun q => (m.entry q.history).map (·.value field)

theorem fieldAt_eq_none_iff {market : Market α} {symbol : String} {field : PriceField} {m : Moment} :
    fieldAt market symbol field m = none ↔ market.find? symbol = none ∨
      ∃ q, market.find? symbol = some q ∧ q.history.length < m.reach := by
  rw [fieldAt]
  cases market.find? symbol with
  | none => simp
  | some q => simp [Moment.entry_eq_none_iff]

/-- A symbol with the name of a field behind it is the address of that field. -/
theorem price_dotted (market : Market α) (symbol : String) (field : PriceField) (m : Moment) :
    price market (symbol ++ "." ++ field.name) m = fieldAt market symbol field m := by
  have hfield : '.' ∉ field.name.toList := by cases field <;> decide
  rw [price, splitLast_dotted symbol hfield, fieldAt]
  cases hq : market.find? symbol with
  | none => simp [hq]
  | some q =>
    cases m with
    | current => cases hc : q.history.getLast? <;> simp [hq, hc, Moment.entry, PriceField.ofName?_name]
    | previous =>
      cases hc : q.history.dropLast.getLast? <;>
        simp [hq, hc, beforeLast_eq, Moment.entry, PriceField.ofName?_name]

/-! ### Blocks -/

section Blocks

/-- **What is read of a series:** its last value as the current one, and the value before it as the
previous one, of which there is none exactly where the series has one value. -/
structure Reads (read : Moment → Except Failure (Option α)) (xs : List α) : Prop where
  current : ∃ x, xs.getLast? = some x ∧ read .current = .ok (some x)
  previous : read .previous = .ok xs.dropLast.getLast?
  none_iff : read .previous = .ok none ↔ xs.length = 1

theorem reads_of_entry {read : Moment → Except Failure (Option α)} {xs : List α} (hxs : xs ≠ [])
    (h : ∀ m, read m = .ok (m.entry xs)) : Reads read xs := by
  have hpos := List.length_pos_iff.mpr hxs
  refine ⟨⟨xs.getLast hxs, List.getLast?_eq_some_getLast hxs, ?_⟩, h .previous, ?_⟩
  · rw [h, Moment.entry, List.getLast?_eq_some_getLast hxs]
  · rw [h, Except.ok.injEq, Moment.entry_eq_none_iff, Moment.reach]
    omega

theorem contains_readouts (studies : Studies α) (id : String) :
    (studies.map Study.readout).contains id = studies.contains id := by
  rw [Table.contains, Table.find?_map, Option.isSome_map, Table.contains]

variable [Arith α]

/-- The number behind the address of an indicator, given the studies. -/
def studied (studies : Studies α) (market : Market α) (address : String) (m : Moment) :
    Except Failure (Option α) :=
  resolve (.text "indicator") (.text address) market (studies.map Study.readout) m

/-- **Where the addresses of a block lead.**  The identifier of a block with one series leads to that
series, and with a name behind it nowhere.  The identifier of a block with named lines leads nowhere,
and with the name of a line behind it to that line.  An address that is the identifier of a block
itself is left to that block. -/
def Leads (studies : Studies α) (market : Market α) (b : String) : Lines α → Prop
  | .single xs => Reads (studied studies market b) xs ∧
    ∀ name, '.' ∉ name.toList → studies.contains (b ++ "." ++ name) = false →
      ∀ m, studied studies market (b ++ "." ++ name) m = .ok none
  | .named hs => (∀ m, studied studies market b m = .ok none) ∧
    ∀ h ∈ hs, studies.contains (b ++ "." ++ h.1) = false →
      Reads (studied studies market (b ++ "." ++ h.1)) h.2

variable {studies : Studies α} {market : Market α} {b : String} {x : Study α}

/-- The identifier of a block is read without a name. -/
theorem studied_block (h : studies.find? b = some x) (m : Moment) :
    studied studies market b m = lineAt x.readout none m := by
  have hcontains : (studies.map Study.readout).contains b = true := by
    rw [contains_readouts, Table.contains, h, Option.isSome_some]
  show indicator (studies.map Study.readout) b m = _
  rw [indicator, lineOf_of_contains hcontains]
  simp only [Table.find?_map, h, Option.map_some]

/-- A name behind it is the name of a line. -/
theorem studied_dotted (h : studies.find? b = some x) {name : String} (hname : '.' ∉ name.toList)
    (hfree : studies.contains (b ++ "." ++ name) = false) (m : Moment) :
    studied studies market (b ++ "." ++ name) m = lineAt x.readout (some name) m := by
  show indicator (studies.map Study.readout) (b ++ "." ++ name) m = _
  rw [indicator, lineOf_dotted hname (by rw [contains_readouts, hfree])]
  simp only [Table.find?_map, h, Option.map_some]

/-- **The addresses of a block whose lines can be addressed.** -/
theorem leads_of_addressable (h : studies.find? b = some x) (hlines : x.lines.Addressable) :
    Leads studies market b x.lines := by
  have hblock := @studied_block α _ studies market b x h
  have hdotted := @studied_dotted α _ studies market b x h
  rw [Study.readout] at hblock hdotted
  cases hx : x.lines with
  | single xs =>
    rw [hx] at hlines hblock hdotted
    refine ⟨reads_of_entry hlines fun m => ?_, fun name hname hfree m => ?_⟩
    · rw [hblock, lineAt_single]
    · rw [hdotted hname hfree, lineAt_single_some]
  | named hs =>
    rw [hx] at hlines hblock hdotted
    obtain ⟨hnodup, hnames⟩ := hlines
    refine ⟨fun m => ?_, fun line hline hfree => ?_⟩
    · rw [hblock, lineAt_named_none]
    · obtain ⟨hne, hdot, hxs⟩ := hnames line hline
      have hfind : (Table.mk hs).find? line.1 = some line.2 :=
        (Table.mem_entries_iff hnodup).mp hline
      refine reads_of_entry hxs fun m => ?_
      rw [hdotted hdot hfree, lineAt_named hne hfind]

end Blocks

/-- **Addresses lead where they say.**  After a run, the address of every block and of every line of a
block leads to its series, whatever dots the identifier contains.  In every market, a symbol with the
name of a field behind it leads to that field of the last candle or of the one before it, and nowhere
exactly if the symbol is missing or has too few candles. -/
theorem sources_faithful [Arith α] {s : Strategy α} {now : Instant} {market : Market α}
    {outcome : Outcome α} (h : s.run now market = .ok outcome) :
    (∀ b x, outcome.studies.find? b = some x →
      ∀ market' : Market α, Leads outcome.studies market' b x.lines) ∧
    ∀ (market' : Market α) (readouts : Table (Readout α)) (symbol : String) (field : PriceField)
      (m : Moment),
      resolve (.text "price") (.text (symbol ++ "." ++ field.name)) market' readouts m =
        .ok (fieldAt market' symbol field m) ∧
      (fieldAt market' symbol field m = none ↔ market'.find? symbol = none ∨
        ∃ q, market'.find? symbol = some q ∧ q.history.length < m.reach) := by
  refine ⟨fun b x hx market' => leads_of_addressable hx (Strategy.addressable_of_run h hx), ?_⟩
  intro market' readouts symbol field m
  exact ⟨congrArg Except.ok (price_dotted market' symbol field m), fieldAt_eq_none_iff⟩

/-- A convergence whose identifier has a dot, and a mean that is named like the signal line of it. -/
def dottedBlocks : Strategy Float :=
  { Desk.steady [] with
    blocks := [⟨"fast.v2", "indicator", "macd", shortPeriods, 0, ""⟩,
      ⟨"fast.v2.signal", "indicator", "sma", .ofList [("period", .int 2)], 1, ""⟩] }

/-- The address that both could claim is left to the mean; the other lines of the convergence are
reached, and so is the close of the candle before the last one. -/
theorem sources_faithful_of_dotted : ∃ (outcome : Outcome Float) (x y : Study Float),
    dottedBlocks.run ⟨0⟩ (charted [10.0, 11.0, 9.0, 12.0]) = .ok outcome ∧
    outcome.studies.find? "fast.v2" = some x ∧ outcome.studies.find? "fast.v2.signal" = some y ∧
    Leads outcome.studies .empty "fast.v2" x.lines ∧
    Leads outcome.studies .empty "fast.v2.signal" y.lines ∧
    resolve (.text "price") (.text "SPY.close") (charted [10.0, 11.0, 9.0, 12.0]) .empty .previous =
      .ok (some 9.0) := by
  have hran : (dottedBlocks.run ⟨0⟩ (charted [10.0, 11.0, 9.0, 12.0])).toOption.any
      (fun outcome => (outcome.studies.find? "fast.v2").isSome &&
        (outcome.studies.find? "fast.v2.signal").isSome) = true := by decide +kernel
  obtain ⟨outcome, hrun, hblocks⟩ := (Option.any_eq_true _ _).mp hran
  obtain ⟨hx, hy⟩ := Bool.and_eq_true_iff.mp hblocks
  obtain ⟨x, hx⟩ := Option.isSome_iff_exists.mp hx
  obtain ⟨y, hy⟩ := Option.isSome_iff_exists.mp hy
  have hrun := toOption_eq_some_iff.mp hrun
  obtain ⟨hleads, hprices⟩ := sources_faithful hrun
  obtain ⟨hclose, -⟩ := hprices (charted [10.0, 11.0, 9.0, 12.0]) .empty "SPY" .close .previous
  exact ⟨outcome, x, y, hrun, hx, hy, hleads _ _ hx _, hleads _ _ hy _, hclose⟩

end Source

end PaperTrading
