import PaperTrading.Number.Double
import PaperTrading.Proofs.Sorting
import PaperTrading.Proofs.Text.Digits
import PaperTrading.Strategy.Document

/-!
# The normal form of strategies

A strategy that has been read from a document is written as a document that reads back as the same
strategy.  The two readings do not take the same way: the first one fills gaps, from the place of a
block in the document among other things, and it sorts.  The second one finds nothing to fill and
nothing to sort, because whatever stands in for something that is missing counts as given.

* `Value.display_ne_empty`: a value that counts as given is not written as the empty text.
* `Strategy.Normal`: **the strategies that a document can describe,** `Strategy.normal_of_read`.
* `Block.read_toValue`, `Strategy.read_toValue`: a written block or strategy reads back.
* `Strategy.blockDocuments`, `Strategy.read_ok`, `perm_orderBlocks`, `pairwise_orderBlocks`,
  `filter_orderBlocks`: the blocks of a strategy are those of its document, in order.
* `Strategy.normal_form`: **a strategy is in normal form once it has been read.**
-/

namespace PaperTrading

/-! ### Texts that are not empty -/

theorem append_ne_empty_left {s : String} (h : s ≠ "") (t : String) : s ++ t ≠ "" := fun he =>
  h (String.append_eq_empty_iff.mp he).1

theorem append_ne_empty_right {t : String} (h : t ≠ "") (s : String) : s ++ t ≠ "" := fun he =>
  h (String.append_eq_empty_iff.mp he).2

theorem signed_ne_empty {s : String} (h : s ≠ "") (negative : Bool) : signed negative s ≠ "" := by
  cases negative with
  | false => exact h
  | true => exact append_ne_empty_right h _

theorem Digits.exponentText_ne_empty (e : Int) : Digits.exponentText e ≠ "" := by
  refine append_ne_empty_left ?_ _
  split <;> decide

theorem Digits.text_ne_empty (d : Digits) : d.text ≠ "" := by
  unfold Digits.text
  simp only
  split
  · split
    · exact append_ne_empty_right (by decide) _
    · split
      · intro h
        have := congrArg String.toList h
        simp at this
      · exact append_ne_empty_left (by decide) _
  · exact append_ne_empty_right (exponentText_ne_empty _) _

theorem Binary64.written_ne_empty (b : Binary64) : b.written ≠ "" := by
  cases b with
  | nan => decide
  | infinity negative => exact signed_ne_empty (by decide) negative
  | finite negative m q narrowBelow =>
    refine signed_ne_empty ?_ negative
    split
    · decide
    · exact Digits.text_ne_empty _

/-- **A value that counts as given** is not written as the empty text. -/
theorem Value.display_ne_empty {v : Value Float} (h : v.isTrue = true) : v.display ≠ "" := by
  have hbracketed : ∀ s t u : String, s ≠ "" → s ++ t ++ u ≠ "" := fun s t u hs =>
    append_ne_empty_left (append_ne_empty_left hs t) u
  cases v with
  | null => decide
  | bool b => cases b <;> decide
  | int n => exact (endsWithDigit_int n).ne_empty
  | num x => exact (Binary64.ofFloat x).written_ne_empty
  | text s => simpa [isTrue, display] using h
  | list items => exact hbracketed "[" _ _ (by decide)
  | object fields => exact hbracketed "\x7b" _ _ (by decide)

variable {α : Type} [Arith α]

/-! ### Values that count as given -/

/-- The first given value, or a default that counts as given, counts as given. -/
theorem isTrue_firstGiven {fields : Table (Value α)} {default : Value α}
    (h : default.isTrue = true) (names : List String) :
    (firstGiven fields names default).isTrue = true := by
  induction names with
  | nil => exact h
  | cons name names ih =>
    show ((Value.get fields name).orElse (firstGiven fields names default)).isTrue = true
    unfold Value.orElse
    split
    · assumption
    · exact ih

theorem toTable_settings (t : Table (Value α)) :
    ((Value.ofTable t).orElse (.object [])).toTable = .ok t := by
  obtain ⟨entries⟩ := t
  cases entries <;> rfl

theorem items_orElse_list (vs : List (Value α)) :
    ((Value.list vs).orElse (.list [])).items = .ok vs := by
  cases vs <;> rfl

theorem toInteger_orElse_zero (n : Int) :
    ((Value.int n : Value α).orElse (.int 0)).toInteger = .ok n := by
  by_cases hn : n = 0
  · subst hn; rfl
  · simp [Value.orElse, Value.isTrue, hn, Value.toInteger]

/-- A text is read back if what stands in for the empty text is empty. -/
theorem display_text_orElse {s : String} {w : Value α} (h : s = "" → w.display = "") :
    ((Value.text s).orElse w).display = s := by
  by_cases hs : s = ""
  · subst hs; exact h rfl
  · rw [Value.orElse_of_isTrue (Value.isTrue_text hs)]; rfl

/-! ### Blocks -/

/-- **What the reading of a block gives,** as far as its identifier is concerned: a text that is
given, or one that is made of the role and the place of the block. -/
theorem Block.id_of_read {v : Value α} {i : Nat} {b : Block α} (h : Block.read v i = .ok b) :
    ∃ fields, v = .object fields ∧ b.id = (firstGiven ⟨fields⟩ ["id", "_id"]
      (.text (textField ⟨fields⟩ "type" ++ "-" ++ toString i))).display := by
  cases v with
  | object fields =>
    obtain ⟨_, hfields, h⟩ := bind_ok_iff.mp h
    obtain rfl := Except.ok.inj hfields
    obtain ⟨settings, -, h⟩ := bind_ok_iff.mp h
    obtain ⟨position, -, h⟩ := bind_ok_iff.mp h
    obtain rfl := Except.ok.inj h
    exact ⟨fields, rfl, rfl⟩
  | null | bool | int | num | text | list => cases h

/-- **A written block reads back,** wherever it stands. -/
theorem Block.read_toValue {b : Block α} (h : b.id ≠ "") (i : Nat) :
    Block.read b.toValue i = .ok b := by
  let generated : Value α := .text s!"{b.role}-{i}"
  calc Block.read b.toValue i
      = (do
        let settings ← ((Value.ofTable b.settings).orElse (.object [])).toTable
        let position ← ((Value.int b.position).orElse (.int 0)).toInteger
        return {
          b with
          id := ((Value.text b.id).orElse (Value.null.orElse generated)).display
          settings := settings
          position := position }) := rfl
    _ = .ok b := by
      rw [toTable_settings, toInteger_orElse_zero, display_text_orElse fun hid => absurd hid h]
      rfl

theorem mapM_read_toValue {bs : List (Block α)} (h : ∀ b ∈ bs, b.id ≠ "") (k : Nat) :
    ((bs.map Block.toValue).zipIdx k).mapM (fun d => Block.read d.1 d.2) = .ok bs := by
  induction bs generalizing k with
  | nil => rfl
  | cons b bs ih =>
    obtain ⟨hb, hbs⟩ := List.forall_mem_cons.mp h
    rw [List.map_cons, List.zipIdx_cons, List.mapM_cons, Block.read_toValue hb, ih hbs]
    rfl

/-! ### Strategies -/

/-- **The strategies that a document can describe:** the blocks are in order, every block has an
identifier, and there is a timeframe. -/
structure Strategy.Normal (s : Strategy α) : Prop where
  ordered : s.blocks.Pairwise fun a b => a.position ≤ b.position
  named : ∀ b ∈ s.blocks, b.id ≠ ""
  timed : s.timeframe ≠ ""

omit [Arith α] in
theorem orderBlocks_of_pairwise {bs : List (Block α)}
    (h : bs.Pairwise fun a b => a.position ≤ b.position) : orderBlocks bs = bs :=
  List.mergeSort_of_pairwise (by simpa using h)

/-- **A written strategy reads back.** -/
theorem Strategy.read_toValue {s : Strategy α} (h : s.Normal) :
    Strategy.read s.toValue = .ok s := by
  calc Strategy.read s.toValue
      = (do
        let documents ← ((Value.list (s.blocks.map Block.toValue)).orElse (.list [])).items
        let blocks ← documents.zipIdx.mapM fun d => Block.read d.1 d.2
        let symbols ← ((Value.list s.symbols).orElse (.list [])).items
        return {
          s with
          id := ((Value.text s.id).orElse (Value.null.orElse (.text ""))).display
          owner := ((Value.text s.owner).orElse
            (Value.null.orElse (Value.null.orElse (.text "")))).display
          blocks := orderBlocks blocks
          symbols := symbols
          timeframe := ((Value.text s.timeframe).orElse (.text "1d")).display }) := rfl
    _ = .ok s := by
      have hblocks := mapM_read_toValue h.named 0
      have horder := orderBlocks_of_pairwise h.ordered
      rw [items_orElse_list, items_orElse_list, display_text_orElse fun _ => rfl,
        display_text_orElse fun _ => rfl, display_text_orElse fun htime => absurd htime h.timed]
      simp only [bind, Except.bind, hblocks, horder, pure, Except.pure]

/-- **The documents of the blocks** of a strategy, as its own document lists them. -/
def Strategy.blockDocuments (v : Value α) : Except Failure (List (Value α)) := do
  let fields ← v.fieldsFor "get"
  ((Value.get fields "blocks").orElse (.list [])).items

/-- **What the reading of a strategy gives,** as far as its blocks and its timeframe are concerned. -/
theorem Strategy.read_ok {v : Value α} {s : Strategy α} (h : Strategy.read v = .ok s) :
    (∃ documents bs, Strategy.blockDocuments v = .ok documents ∧
      (documents.zipIdx.mapM fun d => Block.read d.1 d.2) = .ok bs ∧ s.blocks = orderBlocks bs) ∧
    ∃ fields : Table (Value α),
      s.timeframe = ((Value.get fields "timeframe").orElse (.text "1d")).display := by
  obtain ⟨fields, hfields, h⟩ := bind_ok_iff.mp h
  obtain ⟨documents, hdocuments, h⟩ := bind_ok_iff.mp h
  obtain ⟨bs, hbs, h⟩ := bind_ok_iff.mp h
  obtain ⟨symbols, -, h⟩ := bind_ok_iff.mp h
  obtain rfl := Except.ok.inj h
  exact ⟨⟨documents, bs, bind_ok_iff.mpr ⟨fields, hfields, hdocuments⟩, hbs, rfl⟩, fields, rfl⟩

/-! ### The order of the blocks -/

section Order

omit [Arith α]

theorem position_trans (a b c : Block α) (hab : decide (a.position ≤ b.position) = true)
    (hbc : decide (b.position ≤ c.position) = true) : decide (a.position ≤ c.position) = true := by
  simp only [decide_eq_true_eq] at *
  omega

theorem position_total (a b : Block α) :
    (decide (a.position ≤ b.position) || decide (b.position ≤ a.position)) = true := by
  simp only [Bool.or_eq_true, decide_eq_true_eq]
  omega

theorem perm_orderBlocks (bs : List (Block α)) : (orderBlocks bs).Perm bs := List.mergeSort_perm _ _

theorem pairwise_orderBlocks (bs : List (Block α)) :
    (orderBlocks bs).Pairwise fun a b => a.position ≤ b.position :=
  (List.pairwise_mergeSort position_trans position_total bs).imp fun h => of_decide_eq_true h

/-- **Blocks of one position** keep their order. -/
theorem filter_orderBlocks (bs : List (Block α)) (p : Int) :
    (orderBlocks bs).filter (·.position == p) = bs.filter (·.position == p) := by
  refine filter_mergeSort position_trans position_total bs fun a b ha hb => ?_
  rw [beq_iff_eq] at ha hb
  rw [ha, hb]
  exact decide_eq_true le_rfl

end Order

/-! ### The normal form -/

/-- The text that stands in for a missing identifier counts as given. -/
theorem Block.id_ne_empty {v : Value Float} {i : Nat} {b : Block Float}
    (h : Block.read v i = .ok b) : b.id ≠ "" := by
  obtain ⟨fields, -, hid⟩ := Block.id_of_read h
  rw [hid]
  have hplace : (Value.text (textField ⟨fields⟩ "type" ++ "-" ++ toString i) :
      Value Float).isTrue = true :=
    Value.isTrue_text ((endsWithDigit_nat i).append _).ne_empty
  exact Value.display_ne_empty (isTrue_firstGiven hplace _)

/-- **What a document describes** is a strategy that reads back. -/
theorem Strategy.normal_of_read {v : Value Float} {s : Strategy Float}
    (h : Strategy.read v = .ok s) : s.Normal := by
  obtain ⟨⟨documents, bs, -, hbs, hs⟩, fields, htime⟩ := Strategy.read_ok h
  refine ⟨hs ▸ pairwise_orderBlocks bs, fun b hb => ?_, ?_⟩
  · rw [hs, (perm_orderBlocks bs).mem_iff] at hb
    obtain ⟨d, -, hd⟩ := mem_of_mapM_ok hbs hb
    exact Block.id_ne_empty hd
  · rw [htime]
    have hday : (Value.text "1d" : Value Float).isTrue = true := Value.isTrue_text (by decide)
    have hgiven : (firstGiven fields ["timeframe"] (.text "1d")).isTrue = true :=
      isTrue_firstGiven hday _
    exact Value.display_ne_empty hgiven

/-- **A strategy is in normal form once it has been read:** written as a document, it reads back as
the same strategy.  Its blocks are those of the document in the order of their positions, where
blocks of one position keep the order of the document. -/
theorem Strategy.normal_form {v : Value Float} {s : Strategy Float}
    (h : Strategy.read v = .ok s) :
    Strategy.read s.toValue = .ok s ∧
    ∃ documents bs, Strategy.blockDocuments v = .ok documents ∧
      (documents.zipIdx.mapM fun d => Block.read d.1 d.2) = .ok bs ∧
      s.blocks.Perm bs ∧ (s.blocks.Pairwise fun a b => a.position ≤ b.position) ∧
      ∀ p : Int, s.blocks.filter (·.position == p) = bs.filter (·.position == p) := by
  obtain ⟨⟨documents, bs, hdocuments, hbs, hs⟩, -⟩ := Strategy.read_ok h
  refine ⟨Strategy.read_toValue (Strategy.normal_of_read h), documents, bs, hdocuments, hbs, ?_⟩
  rw [hs]
  exact ⟨perm_orderBlocks bs, pairwise_orderBlocks bs, filter_orderBlocks bs⟩

/-- The documents of three blocks, which leave out much and are in no order: the first block is the
last one by its position, and the other two share a position, which one of them does not state. -/
def untidyBlocks : List (Value Float) :=
  [.object [("_id", .num 2.5), ("type", .text "condition"), ("position", .text " 3 ")],
    .object [("type", .text "indicator"), ("id", .text ""), ("settings", .list [])],
    .object [("type", .text "action"), ("id", .list []), ("position", .bool true)]]

def untidyDocument : Value Float :=
  .object [("_id", .int 7), ("user", .text "ada"), ("symbols", .text "AB"),
    ("blocks", .list untidyBlocks)]

theorem normal_form_of_untidy : ∃ s, Strategy.read untidyDocument = .ok s ∧
    (s.blocks.filter (·.position == 1)).map (·.id) = ["indicator-1", "action-2"] ∧
    (s.blocks.filter (·.position == 3)).map (·.id) = ["2.5"] ∧
    Strategy.read s.toValue = .ok s := by
  have hblocks : (untidyBlocks.zipIdx.mapM fun d => Block.read d.1 d.2) = .ok
      [⟨"2.5", "condition", "", ⟨[]⟩, 3, ""⟩, ⟨"indicator-1", "indicator", "", ⟨[]⟩, 1, ""⟩,
        ⟨"action-2", "action", "", ⟨[]⟩, 1, ""⟩] := rfl
  cases hread : Strategy.read untidyDocument with
  | error f => cases hread
  | ok s =>
    obtain ⟨hagain, documents, bs, hdocuments, hbs, -, -, hties⟩ := Strategy.normal_form hread
    obtain rfl : untidyBlocks = documents := Except.ok.inj hdocuments
    obtain rfl := Except.ok.inj (hblocks.symm.trans hbs)
    exact ⟨s, rfl, by rw [hties]; rfl, by rw [hties]; rfl, hagain⟩

end PaperTrading
