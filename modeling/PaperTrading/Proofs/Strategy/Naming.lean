import Mathlib.Data.List.Forall2
import PaperTrading.Proofs.Indicator.Growth
import PaperTrading.Proofs.Strategy.Itinerary
import PaperTrading.Proofs.Strategy.NormalForm

/-!
# The names of blocks

A block without an identifier is named after its role and its place in the document.  Such names
differ from each other, but nothing keeps them from being the identifier that another block has been
given.  Then two blocks share a name, and if both are indicator blocks, one of their studies is lost.

* `Block.givenId`, `Block.placeId`: **the identifier that a document gives a block,** and the one
  that stands in for it; `Block.id_eq_of_read`: a block has one of the two.
* `nodup_blockNames_iff`: when the blocks of a document have different names.
* `Strategy.OneStudyEach`: **every indicator block has its own study.**
* `Strategy.distinct_ids_iff`: what a document has to satisfy for both.
-/

namespace PaperTrading

variable {α : Type} [Arith α]

/-! ### Given and missing identifiers -/

namespace Block

/-- The fields of a document; none if it is no object. -/
def fieldsOf : Value α → Table (Value α)
  | .object fields => ⟨fields⟩
  | _ => .empty

/-- **The identifier that a document gives its block,** if it gives one. -/
def givenId (v : Value α) : Option String :=
  ((["id", "_id"].map (Value.get (fieldsOf v))).find? Value.isTrue).map Value.display

/-- **The identifier of a block that is given none:** its role and its place. -/
def placeId (v : Value α) (i : Nat) : String := textField (fieldsOf v) "type" ++ "-" ++ toString i

end Block

/-- What is read of some fields is the first one that counts as given. -/
theorem display_firstGiven (fields : Table (Value α)) (names : List String) (s : String) :
    (firstGiven fields names (.text s)).display =
      (((names.map (Value.get fields)).find? Value.isTrue).map Value.display).getD s := by
  induction names with
  | nil => rfl
  | cons name names ih =>
    show ((Value.get fields name).orElse (firstGiven fields names (.text s))).display = _
    rw [List.map_cons, List.find?_cons]
    unfold Value.orElse
    cases (Value.get fields name).isTrue with
    | true => rfl
    | false => exact ih

/-- **The identifier of a block** is the one that it is given or the one of its place. -/
theorem Block.id_eq_of_read {v : Value α} {i : Nat} {b : Block α} (h : Block.read v i = .ok b) :
    b.id = (givenId v).getD (placeId v i) := by
  obtain ⟨fields, rfl, hid⟩ := Block.id_of_read h
  rw [hid, display_firstGiven]
  rfl

/-- Two blocks without an identifier are named differently, whatever their roles are. -/
theorem Block.placeId_injective {v w : Value α} {i j : Nat} (h : placeId v i = placeId w j) :
    i = j :=
  number_of_dashed h

/-! ### Names in a document -/

omit [Arith α] in
/-- What is given, else stands in, is what is given together with what stands in for the rest. -/
theorem perm_map_getD {β γ : Type} (f : β → Option γ) (g : β → γ) (xs : List β) :
    (xs.map fun x => (f x).getD (g x)).Perm
      (xs.filterMap f ++ (xs.filter fun x => (f x).isNone).map g) := by
  induction xs with
  | nil => exact .nil
  | cons x xs ih =>
    cases hx : f x with
    | none =>
      rw [List.map_cons, List.filterMap_cons_none hx, List.filter_cons_of_pos (by rw [hx]; rfl),
        List.map_cons, hx]
      exact (ih.cons (g x)).trans List.perm_middle.symm
    | some y =>
      rw [List.map_cons, List.filterMap_cons_some hx, List.filter_cons_of_neg (by rw [hx]; simp),
        hx]
      exact ih.cons y

section Names

variable (documents : List (Value α))

/-- The names of the blocks of a document, in its order. -/
def blockNames : List String :=
  documents.zipIdx.map fun d => (Block.givenId d.1).getD (Block.placeId d.1 d.2)

/-- **The identifiers that a document gives,** in its order. -/
def givenIds : List String := documents.filterMap Block.givenId

variable {documents}

/-- Two blocks without an identifier have different names, as they have different places. -/
theorem nodup_placeIds (documents : List (Value α)) :
    ((documents.zipIdx.filter fun d => (Block.givenId d.1).isNone).map
      fun d => Block.placeId d.1 d.2).Nodup := by
  have hplaces : documents.zipIdx.Pairwise fun d e => d.2 ≠ e.2 := by
    refine List.pairwise_map.mp ?_
    rw [List.zipIdx_map_snd]
    exact List.nodup_range'
  exact List.pairwise_map.mpr
    ((hplaces.filter _).imp fun hne hname => hne (Block.placeId_injective hname))

/-- **When all names are different:** the given identifiers being so, exactly when none of them is
the name of a place that is given none. -/
theorem nodup_blockNames_iff (h : (givenIds documents).Nodup) : (blockNames documents).Nodup ↔
    ∀ i d, documents[i]? = some d → Block.givenId d = none →
      Block.placeId d i ∉ givenIds documents := by
  have hgiven : documents.zipIdx.filterMap (fun d => Block.givenId d.1) = givenIds documents := by
    rw [← Function.comp_def Block.givenId Prod.fst, ← List.filterMap_map, List.zipIdx_map_fst]
    rfl
  unfold blockNames
  rw [(perm_map_getD _ _ _).nodup_iff, hgiven, List.nodup_append]
  constructor
  · rintro ⟨-, -, hapart⟩ i d hd hmissing hmem
    have hplace : (d, i) ∈ documents.zipIdx.filter fun d => (Block.givenId d.1).isNone :=
      List.mem_filter.mpr ⟨List.mem_zipIdx_iff_getElem?.mpr hd, by rw [hmissing]; rfl⟩
    exact hapart _ hmem _ (List.mem_map.mpr ⟨(d, i), hplace, rfl⟩) rfl
  · intro hfree
    refine ⟨h, nodup_placeIds documents, fun id hid id' hid' heq => ?_⟩
    obtain ⟨d, hd, rfl⟩ := List.mem_map.mp hid'
    obtain ⟨hd, hmissing⟩ := List.mem_filter.mp hd
    rw [heq] at hid
    exact hfree d.2 d.1 (List.mem_zipIdx_iff_getElem?.mp hd) (Option.isNone_iff_eq_none.mp hmissing)
      hid

end Names

/-- What is the same of two lists one for one is the same list. -/
theorem map_eq_map_of_forall₂ {β γ δ : Type} {R : β → γ → Prop} {f : β → δ} {g : γ → δ}
    {xs : List β} {ys : List γ} (h : List.Forall₂ R xs ys) (hfg : ∀ x y, R x y → f x = g y) :
    xs.map f = ys.map g := by
  induction h with
  | nil => rfl
  | cons hxy _ ih => rw [List.map_cons, List.map_cons, hfg _ _ hxy, ih]

/-- **The identifiers of a strategy** are the names of its blocks in the document, in another
order. -/
theorem Strategy.perm_blockNames {v : Value α} {s : Strategy α} (h : Strategy.read v = .ok s)
    {documents : List (Value α)} (hdocuments : Strategy.blockDocuments v = .ok documents) :
    (s.blocks.map (·.id)).Perm (blockNames documents) := by
  obtain ⟨⟨documents', bs, hdocuments', hbs, hs⟩, -⟩ := Strategy.read_ok h
  obtain rfl := Except.ok.inj (hdocuments.symm.trans hdocuments')
  have hnames : blockNames documents = bs.map (·.id) :=
    map_eq_map_of_forall₂ (forall₂_of_mapM hbs) fun _ _ hb => (Block.id_eq_of_read hb).symm
  rw [hnames, hs]
  exact (perm_orderBlocks bs).map _

/-! ### Studies -/

namespace Strategy

variable {s : Strategy α} {market : Market α}

/-- A block, and an entry of the studies that is its own. -/
def IsStudyOf (market : Market α) (b : Block α) (e : String × Study α) : Prop :=
  e.1 = b.id ∧ studyAt market b = .ok e.2

/-- **Every indicator block has its own study,** and there are no other studies. -/
def OneStudyEach (s : Strategy α) (market : Market α) (studies : Studies α) : Prop :=
  List.Forall₂ (IsStudyOf market) (s.blocksOf .indicator) studies.entries

theorem foldl_withStudy {bs : List (Block α)} {es : List (String × Study α)}
    (h : List.Forall₂ (IsStudyOf market) bs es) (studies : Studies α) :
    bs.foldl (withStudy market) studies = es.foldl (fun t e => t.insert e.1 e.2) studies := by
  induction h generalizing studies with
  | nil => rfl
  | @cons b e bs es hbe _ ih =>
    obtain ⟨hid, hstudy⟩ := hbe
    have hstep : withStudy market studies b = studies.insert e.1 e.2 := by
      rw [withStudy, hstudy, hid]
    rw [List.foldl_cons, List.foldl_cons, hstep, ih]

/-- Where all studies can be computed, they can be listed in the order of the blocks. -/
theorem exists_studies {bs : List (Block α)} (h : ∀ b ∈ bs, ∃ x, studyAt market b = .ok x) :
    ∃ es, List.Forall₂ (IsStudyOf market) bs es := by
  induction bs with
  | nil => exact ⟨[], .nil⟩
  | cons b bs ih =>
    obtain ⟨⟨x, hx⟩, hbs⟩ := List.forall_mem_cons.mp h
    obtain ⟨es, hes⟩ := ih hbs
    exact ⟨(b.id, x) :: es, .cons ⟨rfl, hx⟩ hes⟩

theorem keys_of_studies {bs : List (Block α)} {es : List (String × Study α)}
    (h : List.Forall₂ (IsStudyOf market) bs es) : es.map (·.1) = bs.map (·.id) :=
  (map_eq_map_of_forall₂ h fun _ _ he => he.1.symm).symm

/-- **A run that succeeds** has one study for every indicator block exactly when these have different
identifiers. -/
theorem oneStudyEach_iff {now : Instant} {outcome : Outcome α} (h : s.run now market = .ok outcome) :
    s.OneStudyEach market outcome.studies ↔ ((s.blocksOf .indicator).map (·.id)).Nodup := by
  obtain ⟨es, hes⟩ := exists_studies fun b hb => studyAt_of_run h hb
  have hstudies : outcome.studies = .ofList es := by
    rw [run_eq] at h
    obtain ⟨-, rfl⟩ := visiting_ok_iff.mp h
    exact foldl_withStudy hes .empty
  rw [OneStudyEach, hstudies]
  constructor
  · intro hone
    rw [← keys_of_studies hone]
    exact Table.nodup_ofList es
  · intro hnodup
    rw [← keys_of_studies hes] at hnodup
    rwa [Table.entries_ofList hnodup]

/-- **What keeps the blocks of a document apart.**  Where the given identifiers are different, the
identifiers of all blocks are different exactly when no block that is given none is named as another
one.  A run that succeeds has one study for every indicator block, its own, exactly when the
identifiers of the indicator blocks are different. -/
theorem distinct_ids_iff {v : Value α} {documents : List (Value α)} (h : Strategy.read v = .ok s)
    (hdocuments : Strategy.blockDocuments v = .ok documents)
    (hgiven : (givenIds documents).Nodup) :
    ((s.blocks.map (·.id)).Nodup ↔ ∀ i d, documents[i]? = some d → Block.givenId d = none →
      Block.placeId d i ∉ givenIds documents) ∧
    ∀ now market outcome, s.run now market = .ok outcome →
      (s.OneStudyEach market outcome.studies ↔ ((s.blocksOf .indicator).map (·.id)).Nodup) := by
  refine ⟨?_, fun now market outcome hrun => oneStudyEach_iff hrun⟩
  rw [(perm_blockNames h hdocuments).nodup_iff]
  exact nodup_blockNames_iff hgiven

end Strategy

/-! ### Two averages -/

/-- The documents of two moving averages, of which only the first has an identifier. -/
def averageDocuments (id : String) : List (Value Float) :=
  [.object [("id", .text id), ("type", .text "indicator"), ("subtype", .text "sma"),
      ("settings", .object [("period", .int 1)])],
    .object [("type", .text "indicator"), ("subtype", .text "sma"),
      ("settings", .object [("period", .int 2)])]]

def averagesDocument (id : String) : Value Float :=
  .object [("id", .text "averages"), ("ownerId", .text "ada"),
    ("blocks", .list (averageDocuments id))]

/-- The strategy of this document. -/
def averages (id : String) : Strategy Float where
  id := "averages"
  owner := "ada"
  blocks := [⟨id, "indicator", "sma", ⟨[("period", .int 1)]⟩, 0, ""⟩,
    ⟨"indicator-1", "indicator", "sma", ⟨[("period", .int 2)]⟩, 1, ""⟩]
  symbols := []
  timeframe := "1d"
  name := ""

theorem read_averages {id : String} (h : id ≠ "") :
    Strategy.read (averagesDocument id) = .ok (averages id) := by
  calc Strategy.read (averagesDocument id)
      = .ok { averages id with
          blocks := orderBlocks [
            ⟨((Value.text id).orElse (Value.null.orElse (.text "indicator-0"))).display, "indicator",
              "sma", ⟨[("period", .int 1)]⟩, 0, ""⟩,
            ⟨"indicator-1", "indicator", "sma", ⟨[("period", .int 2)]⟩, 1, ""⟩] } := rfl
    _ = .ok (averages id) := by
      rw [display_text_orElse fun hid => absurd hid h, orderBlocks_of_pairwise (by simp)]
      rfl

/-- The two averages have a study each if the first one is not named after the place of the
second. -/
theorem distinct_ids_of_fast : ∃ outcome,
    Strategy.read (averagesDocument "fast") = .ok (averages "fast") ∧
    (givenIds (averageDocuments "fast")).Nodup ∧
    ((averages "fast").blocks.map (·.id)).Nodup ∧
    (averages "fast").run ⟨0⟩ (charted [10.0, 12.0]) = .ok outcome ∧
    (averages "fast").OneStudyEach (charted [10.0, 12.0]) outcome.studies := by
  have hread := read_averages (show "fast" ≠ "" by decide)
  have hgiven : (givenIds (averageDocuments "fast")).Nodup := by decide +kernel
  have hran : ((averages "fast").run ⟨0⟩ (charted [10.0, 12.0])).toOption.isSome := by
    decide +kernel
  obtain ⟨outcome, hrun⟩ := Option.isSome_iff_exists.mp hran
  rw [toOption_eq_some_iff] at hrun
  obtain ⟨-, hstudies⟩ := Strategy.distinct_ids_iff hread rfl hgiven
  exact ⟨outcome, hread, hgiven, by decide, hrun, (hstudies _ _ _ hrun).mpr (by decide)⟩

/-- **A study is lost:** the first of the two averages is given the name of the place of the second.
The run succeeds with one study for the two. -/
theorem study_lost : ∃ outcome,
    Strategy.read (averagesDocument "indicator-1") = .ok (averages "indicator-1") ∧
    (givenIds (averageDocuments "indicator-1")).Nodup ∧
    ¬ ((averages "indicator-1").blocks.map (·.id)).Nodup ∧
    (averages "indicator-1").run ⟨0⟩ (charted [10.0, 12.0]) = .ok outcome ∧
    ((averages "indicator-1").blocksOf .indicator).length = 2 ∧
    outcome.studies.entries.length = 1 := by
  have hstudies : ((averages "indicator-1").run ⟨0⟩ (charted [10.0, 12.0])).toOption.map
      (fun outcome => outcome.studies.entries.length) = some 1 := by decide +kernel
  obtain ⟨outcome, hrun, hone⟩ := Option.map_eq_some_iff.mp hstudies
  rw [toOption_eq_some_iff] at hrun
  exact ⟨outcome, read_averages (by decide), by decide +kernel, by decide, hrun, by decide, hone⟩

end PaperTrading
