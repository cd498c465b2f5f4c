import PaperTrading.Market.Fetch
import PaperTrading.Number.Double
import PaperTrading.Proofs.Session.Escape

/-!
# What a collection holds

Market data are collected symbol by symbol, and a symbol whose data cannot be had is to be left out
without harm to the others.  A document is left out if its reading fails for a value of the wrong type
or content, or for want of a field.  Two kinds of failures are not provided for and end the whole
collection: a candle that is no object, and an integer that lies beyond the numbers.

* `Value.TooLarge`, `Candle.Escapes`, `Quote.Escapes`: **the documents that end a collection,** one
  case for every cause; `Quote.outside_read` says that there are no others.
* `Fetch.gathered`, `Fetch.Spoils`: what is kept of a fetch alone, and the fetches that end a
  collection.
* `collect_eq`, `collect_error_iff`: a collection over distinct symbols none of which ends it, and the
  symbol that ends it otherwise.
* `collected_iff`: **when one bad symbol does no harm.**
-/

namespace PaperTrading

open Arith

variable {α : Type}

/-! ### Failures of the reading -/

/-- A wrong type, a wrong content and a missing field tell that a document is malformed. -/
theorem Failure.isMalformed_of_kind {f : Failure}
    (h : f.kind = "ValueError" ∨ f.kind = "TypeError" ∨ f.kind = "KeyError") :
    f.isMalformed = true := by
  unfold isMalformed
  rcases h with h | h | h
  · have hvalue : f.isValue = true := by
      unfold isValue
      split <;> simp_all
    simp [hvalue]
  · simp [h]
  · simp [h]

theorem not_outside_of_kind {β : Type} {f : Failure}
    (h : f.kind = "ValueError" ∨ f.kind = "TypeError" ∨ f.kind = "KeyError") :
    ¬ Outside Failure.isMalformed (.error f : Except Failure β) := by
  rw [outside_error, Failure.isMalformed_of_kind h]
  exact Bool.noConfusion

section Reading

variable [Arith α]

/-- **An integer that lies beyond the numbers,** also as a truth value. -/
def Value.TooLarge : Value α → Prop
  | .int n => Beyond α n
  | .bool b => Beyond α (bit b)
  | _ => False

/-- A value of which no number can be read is malformed, unless it is too large. -/
theorem Value.outside_toNumber (v : Value α) :
    Outside Failure.isMalformed v.toNumber ↔ v.TooLarge := by
  have hlarge : Failure.isMalformed .integerTooLarge = false := by decide +kernel
  cases v with
  | bool b => exact outside_ofInteger hlarge _
  | int n => exact outside_ofInteger hlarge n
  | num x => exact iff_of_false (not_outside_ok x) id
  | text s =>
    refine iff_of_false ?_ id
    unfold toNumber
    dsimp only
    split
    · exact not_outside_ok _
    · exact not_outside_of_kind (.inl rfl)
  | null | list | object => exact iff_of_false (not_outside_of_kind (.inr (.inl rfl))) id

/-- The same where the number may be missing. -/
theorem Value.outside_optional (v : Value α) :
    Outside Failure.isMalformed v.toNumber? ↔ v.TooLarge := by
  unfold toNumber?
  by_cases hv : v.isNull = true
  · rw [if_pos hv]
    refine iff_of_false (not_outside_ok _) ?_
    cases v <;> simp_all [isNull, TooLarge]
  · rw [if_neg hv]
    simp only [outside_bind, outside_toNumber, not_outside_pure, and_false, exists_false, or_false]

namespace Candle

/-- The value of which a number of a candle is read; only the volume may be missing. -/
def entry (fields : Table (Value α)) : PriceField → Except Failure (Value α)
  | .volume => .ok ((Value.get fields "volume").orElse (.num 0.0))
  | f => Value.getRequired fields f.name

/-- What is read for a number of a candle. -/
def number (fields : Table (Value α)) (f : PriceField) : Except Failure α := do
  (← entry fields f).toNumber

/-- The numbers of a candle are read one after the other. -/
theorem read_object (fields : List (String × Value α)) : Candle.read (.object fields) = (do
    match ← PriceField.all.mapM (number ⟨fields⟩) with
    | [opening, high, low, close, volume] => return {
        time := (((Table.mk fields).find? "time").getD (.text "")).display
        opening, high, low, close, volume }
    | _ => .error .malformedJson) := by
  simp only [Candle.read, PriceField.all, number, entry, List.mapM_cons, List.mapM_nil, bind_assoc,
    pure_bind]
  rfl

/-- **The candles that end a collection:** one that is no object, or has an integer beyond the numbers
in the first field that cannot be read. -/
inductive Escapes (v : Value α) : Prop
  | shapeless (h : v.isObject = false)
  | number {fields : List (String × Value α)} {done later : List PriceField} {f : PriceField}
      {w : Value α} (hv : v = .object fields) (hsplit : PriceField.all = done ++ f :: later)
      (hdone : ∀ g ∈ done, ∃ x, number ⟨fields⟩ g = .ok x)
      (hw : entry ⟨fields⟩ f = .ok w) (h : w.TooLarge) : Escapes v

/-- A missing number tells that the document is malformed. -/
theorem not_outside_entry (fields : Table (Value α)) (f : PriceField) :
    ¬ Outside Failure.isMalformed (entry fields f) := by
  have hrequired (name : String) :
      ¬ Outside Failure.isMalformed (Value.getRequired fields name) := by
    unfold Value.getRequired
    split
    · exact not_outside_ok _
    · exact not_outside_of_kind (.inr (.inr rfl))
  cases f with
  | volume => exact not_outside_ok _
  | opening | high | low | close => exact hrequired _

theorem outside_number (fields : Table (Value α)) (f : PriceField) :
    Outside Failure.isMalformed (number fields f) ↔
      ∃ w, entry fields f = .ok w ∧ w.TooLarge := by
  unfold number
  rw [outside_bind, or_iff_right (not_outside_entry fields f)]
  simp only [Value.outside_toNumber]

/-- **Exactly these candles end a collection.** -/
theorem outside_read (v : Value α) :
    Outside Failure.isMalformed (Candle.read v) ↔ Escapes v := by
  have hmember (found : String) : Failure.isMalformed (.noMember found "get") = false := by
    simp [Failure.isMalformed, Failure.isValue, Failure.kind]
  cases v with
  | object fields =>
    have hrest (xs : List α) : ¬ Outside Failure.isMalformed
        (match xs with
          | [opening, high, low, close, volume] => (pure {
              time := (((Table.mk fields).find? "time").getD (.text "")).display
              opening, high, low, close, volume } : Except Failure (Candle α))
          | _ => .error .malformedJson) := by
      split
      · exact not_outside_pure _
      · rw [outside_error]
        decide +kernel
    simp only [read_object, outside_bind, outside_mapM, outside_number, hrest, and_false,
      exists_false, or_false]
    constructor
    · rintro ⟨done, f, later, hsplit, hdone, w, hw, h⟩
      exact .number rfl hsplit hdone hw h
    · rintro (h | ⟨hv, hsplit, hdone, hw, h⟩)
      · cases h
      · cases hv
        exact ⟨_, _, _, hsplit, hdone, _, hw, h⟩
  | null | bool | int | num | text | list =>
    exact iff_of_true (outside_error.mpr (hmember _)) (.shapeless rfl)

end Candle

namespace Quote

/-- The value of which the history of a quote is read. -/
def listed (fields : Table (Value α)) : Value α := (Value.get fields "history").orElse (.list [])

/-- **The documents that end a collection:** the price is an integer beyond the numbers, or the price
can be read and the first candle that cannot be read ends the collection. -/
inductive Escapes (fields : Table (Value α)) : Prop
  | price (h : (Value.get fields "price").TooLarge)
  | candle {price : Option α} {done later : List (Value α)} {c : Value α}
      (hprice : (Value.get fields "price").toNumber? = .ok price)
      (hsplit : (listed fields).items = .ok (done ++ c :: later))
      (hdone : ∀ d ∈ done, ∃ k, Candle.read d = .ok k) (h : Candle.Escapes c)

theorem outside_readAll (v : Value α) : Outside Failure.isMalformed (Candle.readAll v) ↔
    ∃ done c later, v.items = .ok (done ++ c :: later) ∧
      (∀ d ∈ done, ∃ k, Candle.read d = .ok k) ∧ Candle.Escapes c := by
  have hitems : ¬ Outside Failure.isMalformed v.items := by
    cases v with
    | text | list | object => exact not_outside_ok _
    | null | bool | int | num => exact not_outside_of_kind (.inr (.inl rfl))
  unfold Candle.readAll
  simp only [outside_bind, hitems, outside_mapM, Candle.outside_read, false_or]
  constructor
  · rintro ⟨_, hv, done, c, later, rfl, hdone, hc⟩
    exact ⟨done, c, later, hv, hdone, hc⟩
  · rintro ⟨done, c, later, hv, hdone, hc⟩
    exact ⟨_, hv, done, c, later, rfl, hdone, hc⟩

/-- **Exactly these documents end a collection.** -/
theorem outside_read (fields : List (String × Value α)) :
    Outside Failure.isMalformed (Quote.read (.object fields)) ↔ Escapes ⟨fields⟩ := by
  have hread : Quote.read (.object fields) = (do
      let price ← (Value.get ⟨fields⟩ "price").toNumber?
      let history ← Candle.readAll (listed ⟨fields⟩)
      let timestamp := Value.get ⟨fields⟩ "timestamp"
      return {
        price
        timestamp := if timestamp.isNull then none else some timestamp.display
        history }) := rfl
  simp only [hread, outside_bind, Value.outside_optional, outside_readAll, not_outside_pure,
    and_false, exists_false, or_false]
  constructor
  · rintro (h | ⟨price, hprice, done, c, later, hsplit, hdone, h⟩)
    · exact .price h
    · exact .candle hprice hsplit hdone h
  · rintro (h | ⟨hprice, hsplit, hdone, h⟩)
    · exact .inl h
    · exact .inr ⟨_, hprice, _, _, _, hsplit, hdone, h⟩

end Quote

end Reading

/-! ### Fetches -/

section Collecting

variable [Arith α] {provider : Provider α} {period : Value α}

namespace Fetch

/-- **What is kept of a fetch:** a quote, an object that can be read as one, and whatever is no object;
nothing of a fetch that failed or an object that is malformed. -/
def gathered : Fetch α → Option (Quote α ⊕ Value α)
  | failed => none
  | quote q => some (.inl q)
  | document v => if v.isObject then (Quote.read v).toOption.map .inl else some (.inr v)

/-- **The fetches that end a collection,** with the failure of their reading. -/
inductive Spoils : Fetch α → Failure → Prop
  | document {fields : List (String × Value α)} {f : Failure} (h : Quote.Escapes ⟨fields⟩)
      (hf : Quote.read (.object fields) = .error f) : Spoils (.document (.object fields)) f

theorem spoils_object {fields : List (String × Value α)} {f : Failure} :
    Spoils (.document (.object fields)) f ↔
      Quote.read (.object fields) = .error f ∧ f.isMalformed = false := by
  constructor
  · rintro ⟨h, hf⟩
    obtain ⟨g, hg, hmalformed⟩ := (Quote.outside_read fields).mpr h
    obtain rfl : f = g := Except.error.inj (hf.symm.trans hg)
    exact ⟨hf, hmalformed⟩
  · rintro ⟨hf, hmalformed⟩
    exact .document ((Quote.outside_read fields).mp ⟨f, hf, hmalformed⟩) hf

end Fetch

theorem readFetched_error_iff {v : Value α} {f : Failure} :
    readFetched v = .error f ↔ (Fetch.document v).Spoils f := by
  cases v with
  | null | bool | int | num | text | list => exact iff_of_false nofun nofun
  | object fields =>
    rw [Fetch.spoils_object]
    simp only [readFetched, Value.isObject, if_true]
    cases Quote.read (.object fields) with
    | ok q => exact iff_of_false nofun (fun h => nomatch h.1)
    | error g =>
      dsimp only
      split
      · next hg =>
        refine iff_of_false nofun ?_
        rintro ⟨⟨⟩, hf⟩
        rw [hg] at hf
        cases hf
      · next hg =>
        constructor
        · rintro ⟨⟩
          exact ⟨rfl, Bool.eq_false_iff.mpr hg⟩
        · rintro ⟨⟨⟩, -⟩
          rfl

theorem readFetched_ok {v : Value α} {entry : Option (Quote α ⊕ Value α)}
    (h : readFetched v = .ok entry) : entry = (Fetch.document v).gathered := by
  cases v with
  | null | bool | int | num | text | list => exact (Except.ok.inj h).symm
  | object fields =>
    simp only [readFetched, Fetch.gathered, Value.isObject, if_true] at h ⊢
    cases hread : Quote.read (.object fields) with
    | ok q =>
      rw [hread] at h
      exact (Except.ok.inj h).symm
    | error g =>
      rw [hread] at h
      dsimp only at h
      split at h
      · exact (Except.ok.inj h).symm
      · cases h

namespace Fetch

variable {fetched : Fetch α} {f : Failure}

theorem read_error_iff : fetched.read = .error f ↔ fetched.Spoils f := by
  cases fetched with
  | failed | quote => exact iff_of_false nofun nofun
  | document v => exact readFetched_error_iff

theorem read_eq_gathered (h : ∀ f, ¬ fetched.Spoils f) : fetched.read = .ok fetched.gathered := by
  cases fetched with
  | failed | quote => rfl
  | document v =>
    cases hread : readFetched v with
    | error f => exact absurd (readFetched_error_iff.mp hread) (h f)
    | ok entry => exact hread.trans (congrArg Except.ok (readFetched_ok hread))

end Fetch

/-- **Exactly these fetches end a collection.** -/
theorem fetchOne_error_iff {symbol : String} {f : Failure} :
    fetchOne provider period (.text symbol) = .error f ↔ (provider symbol period).Spoils f := by
  unfold fetchOne
  rw [bind_error_iff, ← Fetch.read_error_iff]
  refine or_iff_left ?_
  rintro ⟨entry, -, h⟩
  cases entry <;> cases h

/-- All other fetches yield what is kept of them. -/
theorem fetchOne_eq_gathered {symbol : String} (h : ∀ f, ¬ (provider symbol period).Spoils f) :
    fetchOne provider period (.text symbol) =
      .ok ((provider symbol period).gathered.map (symbol, ·)) := by
  have hread : (provider.fetch (.text symbol) period).read = .ok (provider symbol period).gathered :=
    Fetch.read_eq_gathered h
  unfold fetchOne
  rw [hread]
  cases (provider symbol period).gathered <;> rfl

/-! ### Collections -/

/-- What is kept of the fetches of some symbols, in their order. -/
def gatheredOf (provider : Provider α) (period : Value α) (symbols : List String) :
    List (String × (Quote α ⊕ Value α)) :=
  symbols.filterMap fun s => (provider s period).gathered.map (s, ·)

/-- The symbols of which something is kept. -/
theorem keys_gatheredOf (symbols : List String) :
    (gatheredOf provider period symbols).map (·.1) =
      symbols.filter fun s => (provider s period).gathered.isSome := by
  unfold gatheredOf
  induction symbols with
  | nil => rfl
  | cons s symbols ih => cases h : (provider s period).gathered <;> simp [h, ih]

variable {symbols : List String}

/-- **Over distinct symbols a collection keeps of every fetch what is kept of it alone,** if none of
them ends it. -/
theorem collect_eq (hdistinct : symbols.Nodup)
    (h : ∀ s ∈ symbols, ∀ f, ¬ (provider s period).Spoils f) :
    collect provider (symbols.map .text) period = .ok ⟨gatheredOf provider period symbols⟩ := by
  have hfetched : (symbols.map Value.text).mapM (fetchOne provider period) =
      .ok (symbols.map fun s => (provider s period).gathered.map (s, ·)) := by
    rw [List.mapM_map]
    exact mapM_eq_map fun s hs => fetchOne_eq_gathered (h s hs)
  refine bind_ok_iff.mpr ⟨_, hfetched, ?_⟩
  have hkeys : ((gatheredOf provider period symbols).map (·.1)).Nodup := by
    rw [keys_gatheredOf]
    exact hdistinct.filter _
  rw [List.filterMap_map]
  exact congrArg Except.ok (congrArg Table.mk (Table.entries_ofList hkeys))

/-- The first fetch that ends a collection decides with what it fails. -/
theorem collect_error_iff {f : Failure} :
    collect provider (symbols.map .text) period = .error f ↔ ∃ done s later,
      symbols = done ++ s :: later ∧ (∀ r ∈ done, ∀ g, ¬ (provider r period).Spoils g) ∧
        (provider s period).Spoils f := by
  have hok {r : String} : (∃ entry, fetchOne provider period (.text r) = .ok entry) ↔
      ∀ g, ¬ (provider r period).Spoils g := by
    simp only [← fetchOne_error_iff]
    cases fetchOne provider period (.text r) <;> simp
  unfold collect
  rw [bind_error_iff, List.mapM_map, mapM_error_iff]
  simp only [Function.comp_apply, fetchOne_error_iff, hok, pure, Except.pure, reduceCtorEq,
    and_false, exists_false, or_false]

/-- **When one bad symbol does no harm.**  Over distinct symbols, a collection exists exactly if no
fetch ends it.  It then holds, in the order of the symbols, what is kept of each fetch alone; otherwise
the first fetch that ends it decides with what it fails. -/
theorem collected_iff (hdistinct : symbols.Nodup) (provider : Provider α) (period : Value α) :
    (∀ t, collect provider (symbols.map .text) period = .ok t ↔
      (∀ s ∈ symbols, ∀ f, ¬ (provider s period).Spoils f) ∧
        t.entries = symbols.filterMap fun s => (provider s period).gathered.map (s, ·)) ∧
    (∀ f, collect provider (symbols.map .text) period = .error f ↔ ∃ done s later,
      symbols = done ++ s :: later ∧ (∀ r ∈ done, ∀ g, ¬ (provider r period).Spoils g) ∧
        (provider s period).Spoils f) := by
  refine ⟨fun t => ⟨fun h => ?_, ?_⟩, fun f => collect_error_iff⟩
  · have hharmless : ∀ s ∈ symbols, ∀ f, ¬ (provider s period).Spoils f := by
      intro s hs f hf
      obtain ⟨fetched, hfetched, -⟩ := bind_ok_iff.mp h
      rw [List.mapM_map] at hfetched
      obtain ⟨entry, hentry⟩ := ok_of_mapM_ok hfetched hs
      cases (fetchOne_error_iff.mpr hf).symm.trans hentry
    rw [collect_eq hdistinct hharmless] at h
    exact ⟨hharmless, by rw [← Except.ok.inj h]; rfl⟩
  · rintro ⟨hharmless, hentries⟩
    rw [collect_eq hdistinct hharmless]
    exact congrArg (fun entries => Except.ok (Table.mk entries)) hentries.symm

end Collecting

/-- A provider that has a price of SPY, and candles of AAA but no price. -/
def quoting (candle : Value Float) : Provider Float
  | "AAA", _ => .document (.object [("history", .list [candle])])
  | "SPY", _ => .document (.object [("price", .int 10)])
  | _, _ => .failed

/-- A fetch that fails and a document with an empty candle are left out. -/
theorem collected_of_emptyCandle :
    ["AAA", "QQQ", "SPY"].Nodup ∧
    collect (quoting (.object [])) (["AAA", "QQQ", "SPY"].map .text) (.text "1d") =
      .ok ⟨[("SPY", .inl { price := some 10.0, timestamp := none, history := [] })]⟩ := by
  have hdistinct : ["AAA", "QQQ", "SPY"].Nodup := by decide
  obtain ⟨hcollected, -⟩ := collected_iff hdistinct (quoting (.object [])) (.text "1d")
  refine ⟨hdistinct, (hcollected _).mpr ⟨?_, rfl⟩⟩
  have hempty : ∀ f, ¬ (quoting (.object []) "AAA" (.text "1d")).Spoils f := by
    intro f h
    obtain ⟨⟨⟩, hmalformed⟩ := Fetch.spoils_object.mp h
    exact absurd hmalformed (by decide +kernel)
  have hfailed : ∀ f, ¬ (quoting (.object []) "QQQ" (.text "1d")).Spoils f :=
    fun f (h : Fetch.Spoils .failed f) => nomatch h
  have hprice : ∀ f, ¬ (quoting (.object []) "SPY" (.text "1d")).Spoils f :=
    fun f h => nomatch (Fetch.spoils_object.mp h).1
  simpa only [List.forall_mem_cons] using ⟨hempty, hfailed, hprice, nofun⟩

/-- **A candle that is no object ends the collection,** and takes with it what SPY yields alone. -/
theorem collect_spoiled :
    collect (quoting (.int 1)) (["AAA", "SPY"].map .text) (.text "1d") =
      .error (.noMember "int" "get") ∧
    collect (quoting (.int 1)) (["SPY"].map .text) (.text "1d") =
      .ok ⟨[("SPY", .inl { price := some 10.0, timestamp := none, history := [] })]⟩ :=
  ⟨rfl, rfl⟩

end PaperTrading
