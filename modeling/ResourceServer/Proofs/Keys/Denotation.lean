import ResourceServer.Proofs.Memory.Keys
import ResourceServer.Schema.Key

/-!
# What raw keys denote

A raw key denotes a value of the type of the key column: the number that it is equal to, or the
value that its text spells.  Conversion yields that value, and refuses a raw key that denotes none.
There are exceptions.  It alters numbers, where it cuts off a fraction or rounds a whole number, and
it garbles these and others: infinity fails to be cut off, a whole number may be too great to be
rounded, and a column of texts takes even null and lists as they stand.
-/

namespace ResourceServer

namespace Binary64

/-- A double that is equal to a whole number is cut off to that number. -/
theorem truncate?_of_orderInt? {double : Binary64} {whole : Int}
    (equal : double.orderInt? whole = some .eq) : double.truncate? = some whole := by
  cases double with
  | nan mark => cases equal
  | infinite negative => cases negative <;> cases equal
  | finite negative significand exponent =>
      have noPower : Nat.pow 2 0 = 1 := rfl
      rw [orderInt?, compareFinite, Option.some.injEq, compare_eq_iff_eq] at equal
      rw [truncate?]
      split
      · rename_i above
        rw [min_eq_right above, Int.sub_zero, Int.sub_self, Int.toNat_zero, noPower,
          Nat.cast_one, mul_one] at equal
        rw [← equal]
        cases negative <;> simp [signed]
      · rename_i below
        rw [min_eq_left (by omega), Int.sub_self, Int.toNat_zero, noPower,
          Nat.cast_one, mul_one, Int.zero_sub] at equal
        have positive : 0 < Nat.pow 2 (-exponent).toNat := Nat.pow_pos two_pos
        generalize Nat.pow 2 (-exponent).toNat = divisor at equal positive
        have isProduct : significand = whole.natAbs * divisor := by
          have sizes := congrArg Int.natAbs equal
          rw [Int.natAbs_mul, Int.natAbs_natCast] at sizes
          rw [← sizes]
          cases negative <;> simp [signed]
        rw [isProduct, Nat.mul_div_cancel _ positive, Option.some.injEq]
        rw [isProduct] at equal
        have cancelled : signed negative whole.natAbs * divisor = whole * divisor := by
          rw [← equal]
          cases negative <;> simp [signed]
        exact Int.eq_of_mul_eq_mul_right (by omega) cancelled

/-- The whole number of a double is the one that it is equal to. -/
theorem toInt?_eq_some {double : Binary64} {whole : Int} :
    double.toInt? = some whole ↔ double.orderInt? whole = some .eq := by
  unfold toInt?
  constructor
  · intro isWhole
    split at isWhole
    · split at isWhole
      · rename_i equal
        cases isWhole
        exact equal
      · cases isWhole
    · cases isWhole
  · intro equal
    rw [truncate?_of_orderInt? equal]
    exact if_pos equal

end Binary64

namespace ColumnType

/-- The value of a type that a text spells. -/
def spelled? (type : ColumnType) (word : String) : Option Value :=
  match type with
  | .integer => ((Numeral.readInt word).toOption).map .int
  | .real => (Numeral.readFloat? word).map .float
  | _ => some (.text word)

/-- Whether a key is meant by a raw one: the two are equal, or the raw one spells it. -/
def means (type : ColumnType) (raw key : Value) : Bool :=
  key.coincides raw ||
    match raw with
    | .text word => (type.spelled? word).any key.coincides
    | _ => false

/-- Whether a raw key denotes a value of a type: a number that the type has, any number where the
type has the text of it, or a text that spells a value. -/
def denotes (type : ColumnType) (raw : Value) : Bool :=
  match raw with
  | .int number => type != .real || (Value.float (.ofInt number)).coincides raw
  | .float double => type != .integer || double.toInt?.isSome
  | .text word => (type.spelled? word).isSome
  | _ => false

/-- Whether conversion to a type cuts off or rounds a raw number that it does not denote. -/
def alters (type : ColumnType) (raw : Value) : Bool :=
  match raw with
  | .int number =>
      match Binary64.ofInt number with
      | .infinite _ => false
      | _ => !type.denotes raw
  | .float double => !type.denotes raw && double.isFinite
  | _ => false

/-- Whether conversion to a type takes a raw key that denotes nothing for something else than that. -/
def garbles (type : ColumnType) (raw : Value) : Bool :=
  match raw with
  | .int _ => !type.denotes raw
  | .float double => !type.denotes raw && !double.isNaN
  | .null | .moment _ | .list _ | .object _ => type == .text
  | _ => false

end ColumnType

namespace ColumnType

variable {type : ColumnType} {raw key : Value}

/-- What equals a key that equals a raw one is meant by the raw one. -/
theorem means_of_coincides (rawKey : raw.isKey = true) (keyKey : key.isKey = true)
    (equal : key.coincides raw = true) {filed : Value} (same : filed.coincides key = true) :
    type.means raw filed = true := by
  unfold means
  rw [Value.coincides_trans_of_isKey keyKey rawKey same equal, Bool.true_or]

theorem means_of_spelled {word : String} (spells : type.spelled? word = some key) {filed : Value}
    (same : filed.coincides key = true) : type.means (.text word) filed = true := by
  rw [means, spells, Option.any_some, same, Bool.or_true]

/-- Every key means itself. -/
theorem means_self {filed : Value} (same : filed.coincides raw = true) :
    type.means raw filed = true := by
  unfold means
  rw [same, Bool.true_or]

end ColumnType

namespace Resource

variable {type : ColumnType} {resource : Resource} {raw : Value}

theorem integerKey_means (unaltered : ColumnType.integer.alters raw = false) {key : Value}
    (converted : resource.integerKey raw = .ok key) :
    ∀ filed : Value, filed.coincides key = true → ColumnType.integer.means raw filed = true := by
  cases raw with
  | int number =>
      cases converted
      exact fun _ => ColumnType.means_self
  | float double =>
      cases double with
      | nan mark => cases converted
      | infinite negative => cases converted
      | finite negative significand exponent =>
          have isWhole : (Binary64.finite negative significand exponent).toInt?.isSome = true := by
            simpa [ColumnType.alters, ColumnType.denotes, Binary64.isFinite] using unaltered
          obtain ⟨whole, isWhole⟩ := Option.isSome_iff_exists.mp isWhole
          have equal := Binary64.toInt?_eq_some.mp isWhole
          rw [integerKey, Binary64.truncate?_of_orderInt? equal] at converted
          cases converted
          refine fun _ => ColumnType.means_of_coincides rfl rfl ?_
          simp [Value.coincides, Value.isSameNaN, Value.same, Value.sameAsNumber, Value.number?,
            Value.sameNumber, Value.Number.order?, equal]
  | text word =>
      rw [integerKey] at converted
      cases read : Numeral.readInt word with
      | ok number =>
          rw [read] at converted
          cases converted
          refine fun _ => ColumnType.means_of_spelled ?_
          rw [ColumnType.spelled?, read]
          rfl
      | error fault =>
          rw [read] at converted
          cases converted
  | _ => cases converted

theorem realKey_means (unaltered : ColumnType.real.alters raw = false) {key : Value}
    (converted : resource.realKey raw = .ok key) :
    ∀ filed : Value, filed.coincides key = true → ColumnType.real.means raw filed = true := by
  cases raw with
  | float double =>
      cases converted
      exact fun _ => ColumnType.means_self
  | int number =>
      rw [realKey] at converted
      rw [ColumnType.alters] at unaltered
      split at converted
      · cases converted
      · rename_i finite
        cases converted
        refine fun _ => ColumnType.means_of_coincides rfl rfl ?_
        split at unaltered
        · rename_i infinite
          exact absurd infinite (finite _)
        · simpa [ColumnType.denotes] using unaltered
  | text word =>
      rw [realKey] at converted
      cases read : Numeral.readFloat? word with
      | some double =>
          rw [read] at converted
          cases converted
          refine fun _ => ColumnType.means_of_spelled ?_
          rw [ColumnType.spelled?, read]
          rfl
      | none =>
          rw [read] at converted
          cases converted
  | _ => cases converted

/-- What equals the key that an unaltered raw key is converted to is meant by the raw key. -/
theorem coerceKey_means {column : Column}
    (isColumn : resource.model.column? resource.keyName = some column)
    (typed : column.type ∈ [ColumnType.integer, .real, .text])
    (unaltered : column.type.alters raw = false) {key : Value}
    (converted : resource.coerceKey raw = .ok key) :
    ∀ filed : Value, filed.coincides key = true → column.type.means raw filed = true := by
  rw [coerceKey, isColumn] at converted
  dsimp only at converted
  cases isType : column.type with
  | integer =>
      rw [isType] at converted unaltered
      exact integerKey_means unaltered converted
  | real =>
      rw [isType] at converted unaltered
      exact realKey_means unaltered converted
  | text =>
      rw [isType] at converted
      dsimp only at converted
      unfold plainKey at converted
      split at converted
      · cases converted
      · cases converted
        exact fun _ => ColumnType.means_self
  | boolean | moment | untyped => simp [isType] at typed

/-- A raw key is converted when it denotes a value, and refused by its name when it denotes none. -/
inductive Converts (type : ColumnType) (resource : Resource) (raw : Value) :
    Except Error Value → Prop
  | key {key : Value} : key.isKey = true → type.denotes raw = true →
      Converts type resource raw (.ok key)
  | fault : type.denotes raw = false →
      Converts type resource raw (.error (resource.malformedKey raw))

theorem integerKey_converts (faithful : ColumnType.integer.garbles raw = false) :
    Converts .integer resource raw (resource.integerKey raw) := by
  cases raw with
  | int number => exact .key rfl rfl
  | float double =>
      cases double with
      | nan mark => exact .fault rfl
      | infinite negative => cases faithful
      | finite negative significand exponent =>
          have isWhole : (Binary64.finite negative significand exponent).toInt?.isSome = true := by
            simpa [ColumnType.garbles, ColumnType.denotes, Binary64.isNaN] using faithful
          obtain ⟨whole, equal⟩ := Option.isSome_iff_exists.mp isWhole
          rw [integerKey, Binary64.truncate?_of_orderInt? (Binary64.toInt?_eq_some.mp equal)]
          refine .key rfl ?_
          rw [ColumnType.denotes, isWhole, Bool.or_true]
  | text word =>
      rw [integerKey]
      cases read : Numeral.readInt word with
      | ok number =>
          refine .key rfl ?_
          rw [ColumnType.denotes, ColumnType.spelled?, read]
          rfl
      | error fault =>
          refine .fault ?_
          rw [ColumnType.denotes, ColumnType.spelled?, read]
          rfl
  | _ => exact .fault rfl

theorem realKey_converts (faithful : ColumnType.real.garbles raw = false) :
    Converts .real resource raw (resource.realKey raw) := by
  cases raw with
  | float double => exact .key rfl rfl
  | int number =>
      have equal : (Value.float (.ofInt number)).coincides (.int number) = true := by
        simpa [ColumnType.garbles, ColumnType.denotes] using faithful
      have denotes : ColumnType.real.denotes (.int number) = true := by
        rw [ColumnType.denotes, equal, Bool.or_true]
      rw [realKey]
      cases isDouble : Binary64.ofInt number with
      | infinite negative =>
          rw [isDouble] at equal
          cases negative <;> cases equal
      | _ => exact .key rfl denotes
  | text word =>
      rw [realKey]
      cases read : Numeral.readFloat? word with
      | some double =>
          refine .key rfl ?_
          rw [ColumnType.denotes, ColumnType.spelled?, read]
          rfl
      | none =>
          refine .fault ?_
          rw [ColumnType.denotes, ColumnType.spelled?, read]
          rfl
  | _ => exact .fault rfl

theorem plainKey_converts (faithful : ColumnType.text.garbles raw = false) :
    Converts .text resource raw (resource.plainKey raw) := by
  cases raw with
  | bool flag => exact .fault rfl
  | int number => exact .key rfl rfl
  | float double => exact .key rfl rfl
  | text word => exact .key rfl rfl
  | _ => cases faithful

theorem coerceKey_converts {column : Column}
    (isColumn : resource.model.column? resource.keyName = some column)
    (typed : column.type ∈ [ColumnType.integer, .real, .text])
    (faithful : column.type.garbles raw = false) :
    Converts column.type resource raw (resource.coerceKey raw) := by
  rw [coerceKey, isColumn]
  dsimp only
  cases isType : column.type with
  | integer =>
      rw [isType] at faithful
      exact integerKey_converts faithful
  | real =>
      rw [isType] at faithful
      exact realKey_converts faithful
  | text =>
      rw [isType] at faithful
      exact plainKey_converts faithful
  | boolean | moment | untyped => simp [isType] at typed

end Resource

end ResourceServer
