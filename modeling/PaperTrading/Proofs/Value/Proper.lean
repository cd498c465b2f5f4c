import PaperTrading.Proofs.Session.Evolution
import PaperTrading.Proofs.Strategy.NormalForm
import PaperTrading.Strategy.File

/-!
# Proper values

An object of a document has each of its names once.  Whatever is read from a text keeps to this, and so
do the settings of a strategy that is read from a file, with the symbols that it trades.

* `Value.Proper`, `Table.Proper`: **every object in a value has distinct names.**
* `Json.read_proper`: **values that are read from a text are proper,** by an invariant of the scan and
  one of the building.
* `toTable_proper`: the settings of a block are proper, whichever way they are written.
* `Strategy.TradesProper`, `ofFile_tradesProper`: **the strategies of a file trade proper symbols.**
-/

namespace PaperTrading

variable {α : Type}

namespace Value

/-! ### Proper values -/

/-- **A proper value:** the fields of every object in it have distinct names. -/
inductive Proper : Value α → Prop
  | null : Proper null
  | bool (b : Bool) : Proper (bool b)
  | int (n : Int) : Proper (int n)
  | num (x : α) : Proper (num x)
  | text (s : String) : Proper (text s)
  | list {items : List (Value α)} (h : ∀ v ∈ items, Proper v) : Proper (list items)
  | object {fields : List (String × Value α)} (hnames : (fields.map (·.1)).Nodup)
      (h : ∀ f ∈ fields, Proper f.2) : Proper (object fields)

end Value

/-! ### Tables of proper values -/

/-- **A proper table:** its names are distinct and its values are proper. -/
def Table.Proper (t : Table (Value α)) : Prop := t.keys.Nodup ∧ ∀ f ∈ t.entries, f.2.Proper

theorem Table.empty_proper : (empty : Table (Value α)).Proper := ⟨List.nodup_nil, nofun⟩

theorem Table.Proper.insert {t : Table (Value α)} (ht : t.Proper) (k : String) {v : Value α}
    (hv : v.Proper) : (t.insert k v).Proper := by
  refine ⟨Table.nodup_insert ht.1 k v, fun f hf => ?_⟩
  rcases mem_put hf with rfl | hf
  · exact hv
  · exact ht.2 f hf

theorem Table.Proper.ofTable {t : Table (Value α)} (ht : t.Proper) : (Value.ofTable t).Proper :=
  .object ht.1 ht.2

/-! ### Values that are read from a text -/

namespace Json

/-- A token whose value, if it is a word, is proper. -/
def Token.Proper : Token α → Prop
  | .word v => v.Proper
  | _ => True

/-- A scan whose tokens are proper. -/
def Scan.Proper (s : Scan α) : Prop := ∀ t ∈ s.tokens, t.Proper

/-- A frame in which everything is proper so far. -/
def Frame.Proper : Frame α → Prop
  | .list items => ∀ v ∈ items, v.Proper
  | .object fields _ => fields.Proper

/-- A machine in which everything is proper so far. -/
def Build.Proper : Build α → Prop
  | .value frames | .valueOrEnd frames | .nameOrEnd frames => ∀ f ∈ frames, f.Proper
  | .name fields frames | .afterField fields frames | .colon fields _ frames =>
    fields.Proper ∧ ∀ f ∈ frames, f.Proper
  | .afterItem items frames => (∀ v ∈ items, v.Proper) ∧ ∀ f ∈ frames, f.Proper
  | .done v => v.Proper

namespace Build

variable {b b' : Build α} {frames : List (Frame α)} {t : Token α} {limit : Nat}

theorem complete_proper {v : Value α} (hv : v.Proper) (hframes : ∀ f ∈ frames, f.Proper) :
    (complete v frames).Proper := by
  cases frames with
  | nil => exact hv
  | cons frame frames =>
    obtain ⟨hframe, hrest⟩ := List.forall_mem_cons.mp hframes
    cases frame with
    | list items => exact ⟨List.forall_mem_cons.mpr ⟨hv, hframe⟩, hrest⟩
    | object fields k => exact ⟨hframe.insert k hv, hrest⟩

theorem descend_ok {isObject : Bool} (h : descend limit isObject frames b = .ok b') : b' = b := by
  unfold descend at h
  split at h
  · exact (Except.ok.inj h).symm
  · cases h

theorem beginValue_proper (ht : t.Proper) (hframes : ∀ f ∈ frames, f.Proper)
    (h : beginValue limit frames t = .ok b) : b.Proper := by
  cases t with
  | openList | openObject => rw [descend_ok h]; exact hframes
  | text s => cases h; exact complete_proper (.text s) hframes
  | word v => cases h; exact complete_proper ht hframes
  | _ => cases h

/-- **Every token keeps what is being built proper.** -/
theorem step_proper (hb : b.Proper) (ht : t.Proper) (h : step limit b t = .ok b') : b'.Proper := by
  unfold step at h
  split at h
  · exact beginValue_proper ht hb h
  · cases h; exact complete_proper (.list nofun) hb
  · refine beginValue_proper ht ?_ h
    exact List.forall_mem_cons.mpr ⟨List.forall_mem_nil _, hb⟩
  · cases h; exact hb
  · cases h; exact complete_proper (.object List.nodup_nil nofun) hb
  · cases h; exact ⟨Table.empty_proper, hb⟩
  · cases h; exact List.forall_mem_cons.mpr hb
  · cases h; exact List.forall_mem_cons.mpr hb
  · cases h; exact complete_proper (.list fun v hv => hb.1 v (List.mem_reverse.mp hv)) hb.2
  · cases h; exact hb
  · cases h; exact complete_proper hb.1.ofTable hb.2
  · cases h

theorem result_ok {v : Value α} (h : b.result = .ok v) : b = .done v := by
  unfold result at h
  split at h <;> cases h
  rfl

theorem foldlM_proper {tokens : List (Token α)} (hb : b.Proper) (ht : ∀ t ∈ tokens, t.Proper)
    (h : tokens.foldlM (step limit) b = .ok b') : b'.Proper := by
  induction tokens generalizing b with
  | nil => cases h; exact hb
  | cons t tokens ih =>
    obtain ⟨ht, htokens⟩ := List.forall_mem_cons.mp ht
    rw [List.foldlM_cons] at h
    obtain ⟨b₁, hstep, h⟩ := bind_ok_iff.mp h
    exact ih (step_proper hb ht hstep) htokens h

end Build

namespace Scan

variable {s : Scan α} {c : Char} {cs : List Char} {t : Token α}

theorem Proper.turn (hs : s.Proper) (mode : Mode) : (s.turn mode).Proper := hs

theorem Proper.add (hs : s.Proper) (ht : t.Proper) : (s.add t).Proper :=
  List.forall_mem_cons.mpr ⟨ht, hs⟩

theorem mark?_proper (h : mark? c = some t) : t.Proper := by
  unfold mark? at h
  split at h <;> cases h <;> trivial

theorem Proper.outside (hs : s.Proper) (c : Char) : (s.outside c).Proper := by
  unfold Scan.outside
  split
  · exact hs.turn _
  · split
    · exact hs.turn _
    · split
      · next h => exact hs.add (mark?_proper h)
      · exact hs.turn _

theorem Proper.inside (hs : s.Proper) (units : List Nat) (c : Char) :
    (s.inside units c).Proper := by
  unfold Scan.inside
  split
  · exact hs.add trivial
  · split
    · exact hs.turn _
    · split <;> exact hs.turn _

variable [Arith α]

theorem word?_proper {v : Value α} (h : word? cs = some v) : v.Proper := by
  have hnum : ∀ {x : Option α}, x.map .num = some v → v.Proper := by
    intro x hx
    obtain ⟨y, -, rfl⟩ := Option.map_eq_some_iff.mp hx
    exact .num y
  unfold word? at h
  split at h
  · cases h; exact .null
  · cases h; exact .bool true
  · cases h; exact .bool false
  · exact hnum h
  · exact hnum h
  · exact hnum h
  · split at h
    · cases h; exact .int _
    · exact hnum h
    · cases h

theorem ofWord?_proper (h : Token.ofWord? cs = some t) : t.Proper := by
  unfold Token.ofWord? at h
  dsimp only at h
  split at h
  · cases h; trivial
  · obtain ⟨v, hv, rfl⟩ := Option.map_eq_some_iff.mp h
    exact word?_proper hv

theorem Proper.endWord (hs : s.Proper) (cs : List Char) : (s.endWord cs).Proper := by
  unfold Scan.endWord
  split
  · next h => exact hs.add (ofWord?_proper h)
  · exact hs.turn _

/-- **Every character keeps the tokens proper.** -/
theorem Proper.step (hs : s.Proper) (c : Char) : (s.step c).Proper := by
  unfold Scan.step
  split
  · exact hs
  · exact hs.outside c
  · next chars _ =>
    split
    · dsimp only
      split
      · exact hs.endWord chars
      · exact (hs.endWord chars).outside c
    · exact hs.turn _
  · exact hs.inside _ c
  · split
    · exact hs.turn _
    · split <;> exact hs.turn _
  · split <;> exact hs.turn _

theorem Proper.finish (hs : s.Proper) : s.finish.Proper := by
  unfold Scan.finish
  split
  · exact hs.endWord _
  · exact hs
  · exact hs.turn _

theorem foldl_proper (hs : s.Proper) (cs : List Char) : (cs.foldl Scan.step s).Proper := by
  induction cs generalizing s with
  | nil => exact hs
  | cons c cs ih => exact ih (hs.step c)

end Scan

/-- **Values that are read from a text are proper:** a name that occurs twice in an object keeps one
field. -/
theorem read_proper [Arith α] {limit : Nat} {s : String} {v : Value α}
    (h : read limit s = .ok v) : v.Proper := by
  unfold read at h
  obtain ⟨built, hbuilt, h⟩ := bind_ok_iff.mp h
  have htokens : ∀ t ∈ (Token.ofChars (α := α) s.toList).1, t.Proper := fun t ht =>
    (Scan.foldl_proper (s := ⟨[], .between⟩) (fun _ h => nomatch h) s.toList).finish t
      (List.mem_reverse.mp ht)
  have hproper : built.Proper :=
    Build.foldlM_proper (b := .value []) (fun _ h => nomatch h) htokens hbuilt
  have hresult : built.result = .ok v := by
    split at h
    · exact h
    · cases h
  rw [Build.result_ok hresult] at hproper
  exact hproper

end Json

/-! ### What is read from a proper value -/

namespace Value

variable {v w : Value α} {t : Table (Value α)}

theorem getD_proper (ht : ∀ f ∈ t.entries, f.2.Proper) (hw : w.Proper) (name : String) :
    ((t.find? name).getD w).Proper := by
  cases h : t.find? name with
  | none => exact hw
  | some v => exact ht _ (Table.mem_entries_of_find? h)

theorem get_proper (ht : ∀ f ∈ t.entries, f.2.Proper) (name : String) :
    (Value.get t name).Proper := getD_proper ht .null name

theorem items_proper {vs : List (Value α)} (hv : v.Proper) (h : v.items = .ok vs) :
    ∀ w ∈ vs, w.Proper := by
  cases hv with
  | text s =>
    cases h
    exact List.forall_mem_map.mpr fun c _ => .text c.toString
  | list hitems => cases h; exact hitems
  | object _ _ =>
    cases h
    exact List.forall_mem_map.mpr fun f _ => .text f.1
  | null | bool | int | num => cases h

theorem pairAt_proper {i : Nat} {p : Value α × Value α} (hv : v.Proper) (h : pairAt i v = .ok p) :
    p.2.Proper := by
  unfold pairAt at h
  split at h
  · cases h
  · next k w hitems =>
    obtain ⟨_, -, h⟩ := bind_ok_iff.mp h
    cases h
    exact items_proper hv hitems w (by simp)
  · cases h

variable [Arith α]

theorem orElse_proper (hv : v.Proper) (hw : w.Proper) : (v.orElse w).Proper := by
  unfold orElse
  split
  · exact hv
  · exact hw

theorem mem_putPair {k v : Value α} {ps : List (Value α × Value α)} {p : Value α × Value α}
    (hp : p ∈ putPair k v ps) : p.2 = v ∨ p ∈ ps := by
  induction ps with
  | nil => rw [List.mem_singleton.mp hp]; exact .inl rfl
  | cons q ps ih =>
    rw [putPair] at hp
    split at hp <;> rcases List.mem_cons.mp hp with rfl | hp
    · exact .inl rfl
    · exact .inr (List.mem_cons_of_mem _ hp)
    · exact .inr List.mem_cons_self
    · exact (ih hp).imp_right (List.mem_cons_of_mem _)

theorem foldl_putPair_proper {pairs ps : List (Value α × Value α)}
    (hps : ∀ p ∈ ps, p.2.Proper) (h : ∀ p ∈ pairs, p.2.Proper) :
    ∀ p ∈ pairs.foldl (fun ps p => putPair p.1 p.2 ps) ps, p.2.Proper := by
  induction pairs generalizing ps with
  | nil => exact hps
  | cons q pairs ih =>
    obtain ⟨hq, hpairs⟩ := List.forall_mem_cons.mp h
    refine ih (fun p hp => ?_) hpairs
    rcases mem_putPair hp with hv | hp
    · rw [hv]; exact hq
    · exact hps p hp

/-- **The settings of a block are proper,** whether they are written as an object or as pairs. -/
theorem toTable_proper (hv : v.Proper) (h : v.toTable = .ok t) : ∀ f ∈ t.entries, f.2.Proper := by
  unfold toTable at h
  split at h
  · cases hv with
    | object _ hfields => cases h; exact hfields
  · obtain ⟨vs, hvs, h⟩ := bind_ok_iff.mp h
    obtain ⟨pairs, hpairs, h⟩ := bind_ok_iff.mp h
    cases h
    have hproper : ∀ p ∈ pairs, p.2.Proper := by
      intro p hp
      obtain ⟨⟨w, i⟩, hw, hpair⟩ := mem_of_mapM_ok hpairs hp
      exact pairAt_proper (items_proper hv hvs w (List.fst_mem_of_mem_zipIdx hw)) hpair
    exact List.forall_mem_map.mpr (foldl_putPair_proper (List.forall_mem_nil _) hproper)

end Value

namespace Strategy

variable [Arith α] {s : Strategy α} {v : Value α}

/-- **Every action block names a proper symbol.** -/
def TradesProper (s : Strategy α) : Prop := ∀ v, s.Trades v → v.Proper

theorem TradesTexts.tradesProper (h : s.TradesTexts) : s.TradesProper := by
  intro v hv
  obtain ⟨x, rfl⟩ := h.textual hv
  exact .text x

/-- The settings of a block of a proper document. -/
theorem settings_proper {i : Nat} {b : Block α} (hv : v.Proper) (h : Block.read v i = .ok b) :
    ∀ f ∈ b.settings.entries, f.2.Proper := by
  obtain ⟨fields, hfields, h⟩ := bind_ok_iff.mp h
  obtain ⟨settings, hsettings, h⟩ := bind_ok_iff.mp h
  obtain ⟨position, -, h⟩ := bind_ok_iff.mp h
  cases h
  cases hv with
  | object hnames hvalues =>
    cases hfields
    refine Value.toTable_proper (Value.orElse_proper ?_ ?_) hsettings
    · exact Value.get_proper hvalues "settings"
    · exact .object List.nodup_nil (List.forall_mem_nil _)
  | null | bool | int | num | text | list => cases hfields

theorem read_tradesProper (hv : v.Proper) (h : Strategy.read v = .ok s) : s.TradesProper := by
  obtain ⟨⟨documents, bs, hdocuments, hbs, hs⟩, -⟩ := Strategy.read_ok h
  have hproper : ∀ d ∈ documents, d.Proper := by
    unfold blockDocuments at hdocuments
    obtain ⟨fields, hfields, hitems⟩ := bind_ok_iff.mp hdocuments
    cases hv with
    | object hnames hvalues =>
      cases hfields
      refine Value.items_proper (Value.orElse_proper ?_ ?_) hitems
      · exact Value.get_proper hvalues "blocks"
      · exact .list (List.forall_mem_nil _)
    | null | bool | int | num | text | list => cases hfields
  rintro _ ⟨b, hb, rfl⟩
  have hmem : b ∈ bs := by
    rw [← (perm_orderBlocks bs).mem_iff, ← hs]
    exact (List.mem_filter.mp hb).1
  obtain ⟨⟨d, i⟩, hd, hread⟩ := mem_of_mapM_ok hbs hmem
  have hsettings := settings_proper (hproper d (List.fst_mem_of_mem_zipIdx hd)) hread
  exact Value.orElse_proper (Value.get_proper hsettings "symbol") (.text "SPY")

/-- **The strategies of a file trade proper symbols.** -/
theorem ofFile_tradesProper {name : String} {text : Option String} {strategies : List (Strategy α)}
    (h : ofFile name text = .ok strategies) : ∀ s ∈ strategies, s.TradesProper := by
  unfold ofFile at h
  split at h
  · cases h
    exact List.forall_mem_nil _
  · split at h
    · next v hv =>
      have hproper := Json.read_proper hv
      unfold readAll at h
      obtain ⟨items, hitems, hread⟩ := bind_ok_iff.mp h
      have hdocuments : (documents v).Proper := by
        unfold documents
        split
        · cases hproper with
          | object _ hvalues =>
            exact Value.getD_proper hvalues (.list (List.forall_mem_nil _)) "strategies"
        · exact hproper
      intro s hs
      obtain ⟨d, hd, hread⟩ := mem_of_mapM_ok hread hs
      exact read_tradesProper (Value.items_proper hdocuments hitems d hd) hread
    · cases h
    · cases h

end Strategy

end PaperTrading
