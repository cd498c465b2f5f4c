import PaperTrading.Value.Reading
import PaperTrading.Vocabulary

/-!
# Strategies

A strategy is a list of blocks with an owner, ordered by their declared position.  It is read from a
document in which nearly everything may be missing.

* `Block`, `Strategy`: a block and a strategy.
* `Block.read`, `Strategy.read`: the readers of documents.
* `Strategy.toValue`: the document of a strategy, which reads back.
* `Strategy.validate`: refuses a strategy that names an unknown role or kind.
-/

namespace PaperTrading

/-- **One typed unit of a strategy.** -/
structure Block (α : Type) where
  id : String
  role : String
  kind : String
  settings : Table (Value α)
  position : Int
  name : String

/-- **A strategy,** its blocks in the order of their positions. -/
structure Strategy (α : Type) where
  id : String
  owner : String
  blocks : List (Block α)
  symbols : List (Value α)
  timeframe : String
  name : String

variable {α : Type}

/-- The blocks of a role, in order. -/
def Strategy.blocksOf (s : Strategy α) (r : Role) : List (Block α) :=
  s.blocks.filter (·.role == r.name)

/-! ### Writing -/

/-- The document of a block. -/
def Block.toValue (b : Block α) : Value α :=
  .object [("id", .text b.id), ("type", .text b.role), ("subtype", .text b.kind),
    ("name", .text b.name), ("settings", .ofTable b.settings), ("position", .int b.position)]

/-- The document of a strategy. -/
def Strategy.toValue (s : Strategy α) : Value α :=
  .object [("id", .text s.id), ("ownerId", .text s.owner), ("name", .text s.name),
    ("blocks", .list (s.blocks.map Block.toValue)), ("symbols", .list s.symbols),
    ("timeframe", .text s.timeframe)]

variable [Arith α]

/-! ### Reading -/

/-- The text of a field; the empty text if there is none. -/
def textField (fields : Table (Value α)) (name : String) : String :=
  ((fields.find? name).getD (.text "")).display

/-- The first of some fields that counts as given, or another value. -/
def firstGiven (fields : Table (Value α)) (names : List String) (default : Value α) : Value α :=
  (names.map (Value.get fields)).foldr Value.orElse default

/-- **The block of a document** at a place in its strategy, which stands in for a missing identifier
and a missing position. -/
def Block.read (v : Value α) (index : Nat) : Except Failure (Block α) := do
  let fields ← v.fieldsFor "get"
  let role := textField fields "type"
  let id := firstGiven fields ["id", "_id"] (.text s!"{role}-{index}")
  let settings ← ((Value.get fields "settings").orElse (.object [])).toTable
  let position := (fields.find? "position").getD (.int index)
  return {
    id := id.display
    role := role
    kind := textField fields "subtype"
    settings := settings
    position := ← (position.orElse (.int 0)).toInteger
    name := textField fields "name" }

/-- Blocks in the order of their positions; blocks of one position keep their order. -/
def orderBlocks (bs : List (Block α)) : List (Block α) :=
  bs.mergeSort fun a b => a.position ≤ b.position

/-- **The strategy of a document.** -/
def Strategy.read (v : Value α) : Except Failure (Strategy α) := do
  let fields ← v.fieldsFor "get"
  let documents ← ((Value.get fields "blocks").orElse (.list [])).items
  let blocks ← documents.zipIdx.mapM fun (d, i) => Block.read d i
  let symbols ← ((Value.get fields "symbols").orElse (.list [])).items
  return {
    id := (firstGiven fields ["id", "_id"] (.text "")).display
    owner := (firstGiven fields ["ownerId", "owner_id", "user"] (.text "")).display
    blocks := orderBlocks blocks
    symbols := symbols
    timeframe := ((Value.get fields "timeframe").orElse (.text "1d")).display
    name := textField fields "name" }

/-! ### Validation -/

/-- Refuses a block of an unknown role or kind. -/
def Block.validate (b : Block α) : Except Failure Unit :=
  match Role.ofName? b.role with
  | none => .error (.unknownRole b.role b.id)
  | some r => if b.kind ∈ r.kinds then .ok () else .error (.unknownKindOnBlock r b.kind b.id)

/-- **Refuses a strategy with an unknown block;** the first one decides. -/
def Strategy.validate (s : Strategy α) : Except Failure Unit :=
  s.blocks.forM Block.validate

end PaperTrading
