import PaperTrading.Number.Numeral
import PaperTrading.Text.Quoted
import PaperTrading.Vocabulary

/-!
# Failures

Everything that can go wrong, as a cause.  A cause carries what its wording needs; numbers in it are
kept as they are written.

* `Failure`: the causes.
* `Failure.kind`, `Failure.message`: the reported kind and the reported wording of a cause.
* `Failure.isStrategy`, `Failure.isExecution`, `Failure.isValue`: the families by which callers decide
  whether a failure is recorded, refused or passed on.
* `Outside`: a computation that ends with a failure outside a family, with its laws.
-/

namespace PaperTrading

open Text

/-- **A cause of failure.** -/
inductive Failure where
  /-- A text is no number. -/
  | unreadableNumber (text : String)
  /-- A text is no integer. -/
  | unreadableInteger (text : String)
  /-- A text has too many digits for an integer. -/
  | tooManyDigits (digits : Nat)
  /-- An integer has too many digits to be written. -/
  | integerTooLong
  /-- A value of the type `found` stands where a number is read. -/
  | notNumber (found : String)
  /-- A value of the type `found` stands where an integer is read. -/
  | notInteger (found : String)
  /-- A number that is not finite has no integer part; `isNaN` tells which of the two it is. -/
  | noIntegerPart (isNaN : Bool)
  /-- An integer lies beyond the numbers. -/
  | integerTooLarge
  /-- A square lies beyond the numbers. -/
  | squareTooLarge
  | rootOfNegative
  /-- A division by zero; `whole` when both numbers are integers. -/
  | divisionByZero (whole : Bool)
  /-- A position outside a list. -/
  | positionOutOfRange
  /-- A position that no list can have. -/
  | positionTooLarge
  /-- A value of the type `found` stands where items are listed. -/
  | notIterable (found : String)
  /-- A value of the type `found` cannot be a key. -/
  | notKey (found : String)
  /-- A value of the type `found` does not know `member`. -/
  | noMember (found member : String)
  /-- An object lacks a field. -/
  | missingField (name : String)
  /-- The entry `index` of a list of pairs has `length` items. -/
  | notPair (index length : Nat)
  /-- The entry `index` of a list of pairs has no items. -/
  | notItems (index : Nat)
  /-- The entry `index` of a list of texts has the type `found`. -/
  | notText (index : Nat) (found : String)
  /-- Too few prices for an indicator. -/
  | tooFewPeriods (needed : Int) (label : String) (available : Nat)
  | noHistory (symbol : String)
  | unknownPriceField (field : String)
  | settingNotPositive (name : String) (value : Int)
  | unknownRole (role block : String)
  | unknownKindOnBlock (role : Role) (kind block : String)
  | unknownKind (role : Role) (kind : String)
  | noPeriods (kind : String)
  /-- A strategy run stopped at a block. -/
  | stoppedAt (block : String) (cause : Failure)
  | invalidPrice (side symbol price : String)
  | cannotAffordOne (symbol price cash : String)
  | cannotAfford (quantity : Int) (symbol price : String)
  | noPosition (symbol : String)
  | notEnoughShares (quantity : Int) (symbol : String) (held : Int)
  | unsupportedSide (side : String)
  | notPositive (name value : String)
  | negative (name value : String)
  | notFraction (name value : String)
  | sessionNotFound (id : String)
  | strategyNotFound (id : String)
  | foreignSession
  | foreignStrategy
  | notActive (id status : String)
  | invalidVariable (name text : String)
  /-- No variable can have a name with an equals sign. -/
  | illegalVariableName
  /-- Neither a variable nor a path can hold a null character. -/
  | nullCharacter
  /-- The name of a log level stands for the text `format`. -/
  | unknownLevel (format : String)
  /-- The name of a log level stands for the table of styles. -/
  | levelNotNamed
  | invalidStrategyFile (path : String)
  | fileNotFound (path : String)
  | isDirectory (path : String)
  | notDirectory (path : String)
  | nameTooLong (path : String)
  | malformedJson
  /-- Too many lists and objects lie inside each other; the innermost is an object or a list. -/
  | nestedTooDeeply (isObject : Bool)
  | noCandles
  | warmupTooSmall (warmup : Int)
  deriving DecidableEq, Repr

namespace Failure

/-- **The reported kind of a failure.** -/
def kind : Failure → String
  | unreadableNumber _ | unreadableInteger _ | tooManyDigits _ | integerTooLong
  | noIntegerPart true | rootOfNegative | notPair .. | unknownPriceField _ | settingNotPositive ..
  | notPositive .. | negative .. | notFraction .. | invalidVariable .. | illegalVariableName
  | nullCharacter | unknownLevel _ | invalidStrategyFile _ | noCandles | warmupTooSmall _ =>
    "ValueError"
  | notNumber _ | notInteger _ | notIterable _ | notKey _ | notItems _ | notText .. | levelNotNamed =>
    "TypeError"
  | noIntegerPart false | integerTooLarge | squareTooLarge => "OverflowError"
  | divisionByZero _ => "ZeroDivisionError"
  | positionOutOfRange | positionTooLarge => "IndexError"
  | noMember .. => "AttributeError"
  | missingField _ => "KeyError"
  | tooFewPeriods .. | noHistory _ => "InsufficientDataError"
  | unknownRole .. => "UnknownBlockTypeError"
  | unknownKindOnBlock .indicator _ _ | unknownKind .indicator _ | noPeriods _ =>
    "UnknownIndicatorError"
  | unknownKindOnBlock .condition _ _ | unknownKind .condition _ => "UnknownConditionError"
  | unknownKindOnBlock .action _ _ | unknownKind .action _ => "UnknownActionError"
  | stoppedAt .. => "EvaluationError"
  | invalidPrice .. => "InvalidPriceError"
  | cannotAffordOne .. | cannotAfford .. => "InsufficientFundsError"
  | noPosition _ => "PositionNotFoundError"
  | notEnoughShares .. => "InsufficientSharesError"
  | unsupportedSide _ => "ExecutionError"
  | sessionNotFound _ => "SessionNotFoundError"
  | strategyNotFound _ => "StrategyNotFoundError"
  | foreignSession | foreignStrategy => "AuthorizationError"
  | notActive .. => "SessionNotActiveError"
  | fileNotFound _ => "FileNotFoundError"
  | isDirectory _ => "IsADirectoryError"
  | notDirectory _ => "NotADirectoryError"
  | nameTooLong _ => "OSError"
  | malformedJson => "JSONDecodeError"
  | nestedTooDeeply _ => "RecursionError"

/-- The names that a role knows, as they are listed to the reader of a message. -/
def available (names : List String) : String := "Available: " ++ ", ".intercalate names

/-- **The reported wording of a failure.** -/
def message : Failure → String
  | unreadableNumber s => "could not convert string to float: " ++ quote s
  | unreadableInteger s => "invalid literal for int() with base 10: " ++ quoteBriefly 200 s
  | tooManyDigits digits =>
    s!"Exceeds the limit ({digitLimit} digits) for integer string conversion: value has {digits} digits"
      ++ "; use sys.set_int_max_str_digits() to increase the limit"
  | integerTooLong => s!"Exceeds the limit ({digitLimit} digits) for integer string conversion"
  | notNumber found =>
    "float() argument must be a string or a real number, not '" ++ found ++ "'"
  | notInteger found =>
    "int() argument must be a string, a bytes-like object or a real number, not '" ++ found ++ "'"
  | noIntegerPart true => "cannot convert float NaN to integer"
  | noIntegerPart false => "cannot convert float infinity to integer"
  | integerTooLarge => "int too large to convert to float"
  | squareTooLarge => "(34, 'Numerical result out of range')"
  | rootOfNegative => "math domain error"
  | divisionByZero true => "division by zero"
  | divisionByZero false => "float division by zero"
  | positionOutOfRange => "list index out of range"
  | positionTooLarge => "cannot fit 'int' into an index-sized integer"
  | notIterable found => "'" ++ found ++ "' object is not iterable"
  | notKey found => "unhashable type: '" ++ found ++ "'"
  | noMember found member => "'" ++ found ++ "' object has no attribute '" ++ member ++ "'"
  | missingField name => quote name
  | notPair index length =>
    s!"dictionary update sequence element #{index} has length {length}; 2 is required"
  | notItems index =>
    s!"cannot convert dictionary update sequence element #{index} to a sequence"
  | notText index found => s!"sequence item {index}: expected str instance, {found} found"
  | tooFewPeriods needed label available =>
    s!"Need at least {needed} periods for {label}, got {available}"
  | noHistory symbol => "No historical data found for " ++ symbol
  | unknownPriceField field => "Unknown price field '" ++ field ++ "'"
  | settingNotPositive name value => s!"{name} must be positive, got {value}"
  | unknownRole role block =>
    "Unknown block type '" ++ role ++ "' on block '" ++ block ++ "'. "
      ++ available (Role.all.map Role.name)
  | unknownKindOnBlock role kind block =>
    "Unknown " ++ role.name ++ " type '" ++ kind ++ "' on block '" ++ block ++ "'. "
      ++ available role.kinds
  | unknownKind role kind =>
    "Unknown " ++ role.name ++ " type '" ++ kind ++ "'. " ++ available role.kinds
  | noPeriods kind => "Unknown indicator type: " ++ kind
  | stoppedAt block cause => "Block '" ++ block ++ "' failed: " ++ cause.message
  | invalidPrice side symbol price =>
    "Cannot execute " ++ side ++ " for " ++ symbol ++ " with invalid price: " ++ price
  | cannotAffordOne symbol price cash =>
    "Insufficient funds to buy a single share of " ++ symbol ++ " at " ++ price ++ " (cash " ++ cash
      ++ ")"
  | cannotAfford quantity symbol price =>
    s!"Insufficient funds to buy {quantity} shares of {symbol} at {price}"
  | noPosition symbol => "Cannot sell " ++ symbol ++ " - no position found"
  | notEnoughShares quantity symbol held =>
    s!"Cannot sell {quantity} shares of {symbol} - only have {held}"
  | unsupportedSide side => "Unsupported signal action '" ++ side ++ "'"
  | notPositive name value => name ++ " must be positive, got " ++ value
  | negative name value => name ++ " must not be negative, got " ++ value
  | notFraction name value => name ++ " must be in (0, 1], got " ++ value
  | sessionNotFound id => "Paper trading session not found: " ++ id
  | strategyNotFound id => "Strategy not found: " ++ id
  | foreignSession => "Not authorized to access this session"
  | foreignStrategy => "Not authorized to access this strategy"
  | notActive id status => "Session " ++ id ++ " is " ++ status ++ "; updates are not allowed"
  | illegalVariableName => "illegal environment variable name"
  | nullCharacter => "embedded null byte"
  | unknownLevel format => "Unknown level: " ++ quote format
  | levelNotNamed =>
    "Level not an integer or a valid string: \x7b'%': (<class 'logging.PercentStyle'>, "
      ++ "'%(levelname)s:%(name)s:%(message)s'), '\x7b': (<class 'logging.StrFormatStyle'>, "
      ++ "'\x7blevelname\x7d:\x7bname\x7d:\x7bmessage\x7d'), '$': "
      ++ "(<class 'logging.StringTemplateStyle'>, '$\x7blevelname\x7d:$\x7bname\x7d:$\x7bmessage\x7d')\x7d"
  | invalidVariable name text => "Invalid value for " ++ name ++ ": " ++ quote text
  | invalidStrategyFile path => "Invalid strategy file " ++ path
  | fileNotFound path => "[Errno 2] No such file or directory: " ++ quote path
  | isDirectory path => "[Errno 21] Is a directory: " ++ quote path
  | notDirectory path => "[Errno 20] Not a directory: " ++ quote path
  | nameTooLong path => "[Errno 36] File name too long: " ++ quote path
  | malformedJson => ""
  | nestedTooDeeply isObject =>
    "maximum recursion depth exceeded while decoding a JSON " ++ (if isObject then "object" else "array")
      ++ " from a unicode string"
  | noCandles => "No candle data to replay"
  | warmupTooSmall warmup => s!"warmup must be at least 1, got {warmup}"

/-- Failures of a strategy: it is malformed, or a block could not be computed. -/
def isStrategy : Failure → Bool
  | tooFewPeriods .. | noHistory _ | unknownRole .. | unknownKindOnBlock .. | unknownKind ..
  | noPeriods _ | stoppedAt .. => true
  | _ => false

/-- Failures of one signal, after which the signals behind it are still executed. -/
def isExecution : Failure → Bool
  | invalidPrice .. | cannotAffordOne .. | cannotAfford .. | noPosition _ | notEnoughShares ..
  | unsupportedSide _ => true
  | _ => false

/-- Failures of a value that has the right type and the wrong content. -/
def isValue (f : Failure) : Bool :=
  match f with
  | tooFewPeriods .. | noHistory _ | malformedJson => true
  | f => f.kind == "ValueError"

/-- Failures that tell that a market document is malformed. -/
def isMalformed (f : Failure) : Bool :=
  f.isValue || f.kind == "TypeError" || f.kind == "KeyError"

end Failure

/-! ### Computations that may fail -/

section Computations

variable {ε β γ : Type}

theorem pure_ok_iff {a b : β} : (pure a : Except ε β) = .ok b ↔ a = b := Except.ok.injEq a b ▸ Iff.rfl

theorem bind_ok_iff {x : Except ε β} {f : β → Except ε γ} {c : γ} :
    (x >>= f) = .ok c ↔ ∃ b, x = .ok b ∧ f b = .ok c := by
  cases x <;> simp [bind, Except.bind]

theorem bind_error_iff {x : Except ε β} {f : β → Except ε γ} {e : ε} :
    (x >>= f) = .error e ↔ x = .error e ∨ ∃ b, x = .ok b ∧ f b = .error e := by
  cases x <;> simp [bind, Except.bind]

theorem toOption_eq_some_iff {x : Except ε β} {b : β} : x.toOption = some b ↔ x = .ok b := by
  cases x <;> simp [Except.toOption]

/-- A check that refuses lets a computation succeed only where it does not apply. -/
theorem refuse_ok_iff {p : Prop} [Decidable p] {e : ε} {f : PUnit → Except ε β} {x : Except ε β}
    {b : β} : (if p then (throw e : Except ε PUnit) >>= f else x) = .ok b ↔ ¬ p ∧ x = .ok b := by
  by_cases h : p
  · rw [if_pos h]
    exact ⟨fun h' => (nomatch h'), fun h' => absurd h h'.1⟩
  · rw [if_neg h]
    exact ⟨fun h' => ⟨h, h'⟩, fun h' => h'.2⟩

/-- What a computation over a list yields, one of its items yields. -/
theorem mem_of_mapM_ok {f : β → Except ε γ} {xs : List β} {ys : List γ} (h : xs.mapM f = .ok ys)
    {y : γ} (hy : y ∈ ys) : ∃ x ∈ xs, f x = .ok y := by
  induction xs generalizing ys with
  | nil =>
    rw [List.mapM_nil, pure_ok_iff] at h
    subst h; simp at hy
  | cons x xs ih =>
    simp only [List.mapM_cons, bind_ok_iff, pure_ok_iff] at h
    obtain ⟨z, hz, zs, hzs, rfl⟩ := h
    rcases List.mem_cons.mp hy with rfl | hy
    · exact ⟨x, List.mem_cons_self, hz⟩
    · obtain ⟨x', hx', h'⟩ := ih hzs hy
      exact ⟨x', List.mem_cons_of_mem _ hx', h'⟩

/-- A computation over a list succeeds only where it does so for every item. -/
theorem ok_of_mapM_ok {f : β → Except ε γ} {xs : List β} {ys : List γ} (h : xs.mapM f = .ok ys)
    {x : β} (hx : x ∈ xs) : ∃ y, f x = .ok y := by
  induction xs generalizing ys with
  | nil => cases hx
  | cons z xs ih =>
    simp only [List.mapM_cons, bind_ok_iff, pure_ok_iff] at h
    obtain ⟨y, hy, ys', hys, -⟩ := h
    rcases List.mem_cons.mp hx with rfl | hx
    · exact ⟨y, hy⟩
    · exact ih hys hx

/-- **The first item that fails** decides with what a computation over a list fails. -/
theorem mapM_error_iff {f : β → Except ε γ} {xs : List β} {e : ε} :
    xs.mapM f = .error e ↔ ∃ done x later,
      xs = done ++ x :: later ∧ (∀ y ∈ done, ∃ z, f y = .ok z) ∧ f x = .error e := by
  induction xs with
  | nil => simp [pure, Except.pure]
  | cons x xs ih =>
    rw [List.mapM_cons]
    constructor
    · intro h
      rcases bind_error_iff.mp h with hx | ⟨z, hz, h⟩
      · exact ⟨[], x, xs, rfl, by simp, hx⟩
      · rcases bind_error_iff.mp h with hxs | ⟨zs, -, h⟩
        · obtain ⟨done, y, later, rfl, hdone, hy⟩ := ih.mp hxs
          exact ⟨x :: done, y, later, rfl, List.forall_mem_cons.mpr ⟨⟨z, hz⟩, hdone⟩, hy⟩
        · cases h
    · rintro ⟨done, y, later, hsplit, hdone, hy⟩
      cases done with
      | nil =>
        obtain ⟨rfl, rfl⟩ := List.cons.inj hsplit
        exact bind_error_iff.mpr (.inl hy)
      | cons d done =>
        obtain ⟨rfl, rfl⟩ := List.cons.inj hsplit
        obtain ⟨⟨z, hz⟩, hdone⟩ := List.forall_mem_cons.mp hdone
        have hrest := ih.mpr ⟨done, y, later, rfl, hdone, hy⟩
        exact bind_error_iff.mpr (.inr ⟨z, hz, bind_error_iff.mpr (.inl hrest)⟩)

/-- A computation over a list fails as it does for one of the items. -/
theorem error_of_mapM_error {f : β → Except ε γ} {xs : List β} {e : ε} (h : xs.mapM f = .error e) :
    ∃ x ∈ xs, f x = .error e := by
  obtain ⟨done, x, later, rfl, -, hx⟩ := mapM_error_iff.mp h
  exact ⟨x, List.mem_append_right _ List.mem_cons_self, hx⟩

/-- A computation over a list exists where it does for every item. -/
theorem exists_mapM {f : β → Except ε γ} {xs : List β} (h : ∀ x ∈ xs, ∃ y, f x = .ok y) :
    ∃ ys, xs.mapM f = .ok ys := by
  cases hxs : xs.mapM f with
  | ok ys => exact ⟨ys, rfl⟩
  | error e =>
    obtain ⟨x, hx, he⟩ := error_of_mapM_error hxs
    obtain ⟨y, hy⟩ := h x hx
    rw [hy] at he
    cases he

/-- A computation that succeeds for every item of a list. -/
theorem mapM_eq_map {f : β → Except ε γ} {g : β → γ} {xs : List β}
    (h : ∀ x ∈ xs, f x = .ok (g x)) : xs.mapM f = .ok (xs.map g) := by
  induction xs with
  | nil => rfl
  | cons x xs ih =>
    rw [List.mapM_cons, h x List.mem_cons_self, ih fun y hy => h y (List.mem_cons_of_mem _ hy)]
    rfl

end Computations

/-! ### Failures outside a family -/

section Outside

variable {β γ : Type} {family : Failure → Bool} {x : Except Failure β} {f : Failure}

/-- **A computation that ends with a failure outside a family.** -/
def Outside (family : Failure → Bool) (x : Except Failure β) : Prop :=
  ∃ f, x = .error f ∧ family f = false

theorem not_outside_ok (b : β) : ¬ Outside family (.ok b) := by
  rintro ⟨f, h, -⟩
  cases h

theorem not_outside_pure (b : β) : ¬ Outside family (pure b) := not_outside_ok b

theorem outside_error : Outside family (.error f : Except Failure β) ↔ family f = false := by
  constructor
  · rintro ⟨g, h, hg⟩
    cases h
    exact hg
  · exact fun h => ⟨f, rfl, h⟩

theorem outside_bind {g : β → Except Failure γ} : Outside family (x >>= g) ↔
    Outside family x ∨ ∃ b, x = .ok b ∧ Outside family (g b) := by
  cases x with
  | error f =>
    show Outside family (.error f) ↔ _
    simp [outside_error]
  | ok b =>
    show Outside family (g b) ↔ _
    simp [not_outside_ok]

/-- A computation over a list ends outside the family where the first item that fails does. -/
theorem outside_mapM {g : β → Except Failure γ} {xs : List β} : Outside family (xs.mapM g) ↔
    ∃ done x later, xs = done ++ x :: later ∧ (∀ y ∈ done, ∃ z, g y = .ok z) ∧
      Outside family (g x) := by
  constructor
  · rintro ⟨f, h, hf⟩
    obtain ⟨done, x, later, hsplit, hdone, hx⟩ := mapM_error_iff.mp h
    exact ⟨done, x, later, hsplit, hdone, f, hx, hf⟩
  · rintro ⟨done, x, later, hsplit, hdone, f, hx, hf⟩
    exact ⟨f, mapM_error_iff.mpr ⟨done, x, later, hsplit, hdone, hx⟩, hf⟩

/-- A refusal is outside the family where it applies, unless its failure belongs to it. -/
theorem outside_refusal {p : Prop} [Decidable p] : Outside family (if p then .error f else x) ↔
    p ∧ family f = false ∨ ¬ p ∧ Outside family x := by
  by_cases h : p <;> simp [h, outside_error]

/-- A refusal within the family ends nothing outside it. -/
theorem not_outside_refusal {p : Prop} [Decidable p] (hf : family f = true)
    (hx : ¬ Outside family x) : ¬ Outside family (if p then .error f else x) := by
  rw [outside_refusal]
  rintro (⟨-, h⟩ | ⟨-, h⟩)
  · rw [hf] at h; cases h
  · exact hx h

end Outside

end PaperTrading
