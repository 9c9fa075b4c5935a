import Mathlib.Data.List.Forall2
import ResourceServer.Memory.Order
import ResourceServer.Proofs.Entries
import ResourceServer.Proofs.Numeric.Rank

/-!
# Order of values

Values in which no NaN occurs have an orderly order: to coincide is an equivalence, and
among values that can be sorted together exactly one of two that do not coincide comes
first.  Lists are compared by their first difference, so for them this goes by induction on
the value.
-/

namespace ResourceServer

namespace Moment

/-- Microseconds up to the instant that a moment names. -/
def instant (moment : Moment) : Int :=
  moment.clockMicroseconds - moment.offset.getD 0 * 1000000

theorem order?_eq (left right : Moment) :
    left.order? right =
      if left.offset.isSome = right.offset.isSome then some (compare left.instant right.instant)
      else none := by
  unfold order? instant
  cases left.offset <;> cases right.offset <;> simp

theorem order?_swap (left right : Moment) :
    right.order? left = (left.order? right).map Ordering.swap := by
  rw [order?_eq, order?_eq]
  by_cases same : left.offset.isSome = right.offset.isSome
  · rw [if_pos same, if_pos same.symm, Option.map_some, ← Std.OrientedCmp.eq_swap]
  · rw [if_neg same, if_neg (Ne.symm same), Option.map_none]

theorem order?_eq_some_eq {left right : Moment} :
    left.order? right = some .eq ↔
      left.offset.isSome = right.offset.isSome ∧ left.instant = right.instant := by
  rw [order?_eq]
  split
  · rename_i same
    simp [same]
  · rename_i different
    simp [different]

theorem order?_eq_some_lt {left right : Moment} :
    left.order? right = some .lt ↔
      left.offset.isSome = right.offset.isSome ∧ left.instant < right.instant := by
  rw [order?_eq]
  split
  · rename_i same
    simp [same, Int.compare_eq_lt]
  · rename_i different
    simp [different]

end Moment

namespace Value

/-- No NaN occurs in the value, and no object in it has two members of one name. -/
inductive Orderly : Value → Prop where
  | null : Orderly .null
  | number {value : Value} {number : Number} (counts : value.number? = some number)
      (notNaN : number.isNaN = false) : Orderly value
  | text (text : String) : Orderly (.text text)
  | moment (moment : Moment) : Orderly (.moment moment)
  | list {items : List Value} (each : ∀ item ∈ items, Orderly item) : Orderly (.list items)
  | object {members : List (String × Value)} (named : (members.map Prod.fst).Nodup)
      (each : ∀ member ∈ members, Orderly member.2) : Orderly (.object members)

theorem orderly_list {items : List Value} :
    (Value.list items).Orderly ↔ ∀ item ∈ items, item.Orderly := by
  constructor
  · intro orderly
    cases orderly with
    | number counts _ => cases counts
    | list each => exact each
  · exact .list

theorem orderly_object {members : List (String × Value)} :
    (Value.object members).Orderly ↔
      (members.map Prod.fst).Nodup ∧ ∀ member ∈ members, member.2.Orderly := by
  constructor
  · intro orderly
    cases orderly with
    | number counts _ => cases counts
    | object named each => exact ⟨named, each⟩
  · rintro ⟨named, each⟩
    exact .object named each

theorem Orderly.isNaN_eq_false {value : Value} (orderly : value.Orderly) :
    value.isNaN = false := by
  cases orderly with
  | @number _ number counts notNaN =>
      cases value with
      | float double =>
          cases counts
          exact notNaN
      | _ => rfl
  | _ => rfl

/-! ## Values that coincide -/

theorem null_coincides {other : Value} : coincides .null other = true ↔ other = .null := by
  cases other <;> simp [coincides, isSameNaN, same, isNull]

theorem text_coincides {text : String} {other : Value} :
    coincides (.text text) other = true ↔ .text text = other := by
  cases other <;> simp [coincides, isSameNaN, same]

theorem moment_coincides {moment : Moment} {other : Value} :
    coincides (.moment moment) other = true ↔
      ∃ instant, other = .moment instant ∧ moment.order? instant = some .eq := by
  cases other <;> simp [coincides, isSameNaN, same]

theorem Number.order?_eq_none {left right : Number} (isNaN : right.isNaN = true) :
    left.order? right = none := by
  cases right with
  | whole right => cases isNaN
  | double right =>
      cases right with
      | nan mark =>
          cases left with
          | whole left => rfl
          | double left => cases left <;> rfl
      | infinite negative => cases isNaN
      | finite negative significand exponent => cases isNaN

theorem sameNumber_eq_true {left right : Number} (notNaN : left.isNaN = false) :
    sameNumber left right = true ↔ right.isNaN = false ∧ left.rank = right.rank := by
  unfold sameNumber
  cases isNaN : right.isNaN with
  | true => simp [Number.order?_eq_none isNaN]
  | false => simp [Number.order?_eq notNaN isNaN]

theorem number_coincides {value other : Value} {left : Number}
    (counts : value.number? = some left) (notNaN : left.isNaN = false) :
    coincides value other = true ↔
      ∃ right, other.number? = some right ∧ right.isNaN = false ∧ left.rank = right.rank := by
  have same : coincides value other = sameAsNumber left other := by
    cases value with
    | bool flag => cases counts; cases other <;> rfl
    | int number => cases counts; cases other <;> rfl
    | float double =>
        cases counts
        cases double with
        | nan mark => cases notNaN
        | infinite negative => cases other <;> rfl
        | finite negative significand exponent => cases other <;> rfl
    | _ => cases counts
  rw [same, sameAsNumber]
  cases other.number? with
  | none => simp
  | some right => simp [sameNumber_eq_true notNaN]

theorem sameItems_eq_true {items others : List Value} :
    sameItems items others = true ↔
      List.Forall₂ (fun item other => item.coincides other = true) items others := by
  induction items generalizing others with
  | nil => cases others <;> simp [sameItems]
  | cons item rest induction =>
      cases others with
      | nil => simp [sameItems]
      | cons other others =>
          rw [sameItems, Bool.and_eq_true, induction, List.forall₂_cons]
          rfl

theorem list_coincides {items : List Value} {other : Value} :
    coincides (.list items) other = true ↔
      ∃ others, other = .list others ∧
        List.Forall₂ (fun item other => item.coincides other = true) items others := by
  cases other <;> simp [coincides, isSameNaN, same, sameItems_eq_true]

theorem sameMembers_eq_true {members others : List (String × Value)} :
    sameMembers members others = true ↔
      ∀ member ∈ members, ∃ other, others.lookup member.1 = some other ∧
        member.2.coincides other = true := by
  induction members with
  | nil => simp [sameMembers]
  | cons member rest induction =>
      obtain ⟨name, value⟩ := member
      rw [sameMembers, Bool.and_eq_true, induction, List.forall_mem_cons]
      refine and_congr_left fun _ => ?_
      cases others.lookup name with
      | none => simp
      | some other => simp [coincides]

theorem object_coincides {members : List (String × Value)} {other : Value} :
    coincides (.object members) other = true ↔
      ∃ others, other = .object others ∧ members.length = others.length ∧
        ∀ member ∈ members, ∃ other, others.lookup member.1 = some other ∧
          member.2.coincides other = true := by
  cases other <;> simp [coincides, isSameNaN, same, sameMembers_eq_true]

/-! ## Coinciding is an equivalence -/

theorem Orderly.coincides_self {value : Value} (orderly : value.Orderly) :
    value.coincides value = true := by
  induction orderly with
  | null => rfl
  | number counts notNaN => exact (number_coincides counts notNaN).mpr ⟨_, counts, notNaN, rfl⟩
  | text text => exact text_coincides.mpr rfl
  | moment moment =>
      exact moment_coincides.mpr ⟨moment, rfl, Moment.order?_eq_some_eq.mpr ⟨rfl, rfl⟩⟩
  | list _ induction => exact list_coincides.mpr ⟨_, rfl, List.forall₂_same.mpr induction⟩
  | object named _ induction =>
      refine object_coincides.mpr ⟨_, rfl, rfl, ?_⟩
      intro member found
      exact ⟨member.2, Entries.lookup_of_mem named found, induction member found⟩

theorem Orderly.coincides_symm {left right : Value} (leftOrderly : left.Orderly)
    (rightOrderly : right.Orderly) (coincide : left.coincides right = true) :
    right.coincides left = true := by
  induction leftOrderly generalizing right with
  | null =>
      rw [null_coincides.mp coincide]
      rfl
  | number counts notNaN =>
      obtain ⟨number, rightCounts, rightNotNaN, same⟩ := (number_coincides counts notNaN).mp coincide
      exact (number_coincides rightCounts rightNotNaN).mpr ⟨_, counts, notNaN, same.symm⟩
  | text text =>
      cases text_coincides.mp coincide
      exact coincide
  | moment moment =>
      obtain ⟨instant, rfl, same⟩ := moment_coincides.mp coincide
      obtain ⟨sameOffset, sameInstant⟩ := Moment.order?_eq_some_eq.mp same
      refine moment_coincides.mpr ⟨moment, rfl, ?_⟩
      exact Moment.order?_eq_some_eq.mpr ⟨sameOffset.symm, sameInstant.symm⟩
  | @list items each induction =>
      obtain ⟨others, rfl, pairs⟩ := list_coincides.mp coincide
      have othersOrderly := orderly_list.mp rightOrderly
      have known := (List.forall₂_and_left _ _).mpr ⟨induction, pairs⟩
      have orderly := (List.forall₂_and_left _ _).mpr ⟨othersOrderly, known.flip⟩
      refine list_coincides.mpr ⟨items, rfl, ?_⟩
      exact orderly.imp fun other item both => both.2.1 both.1 both.2.2
  | @object members named each induction =>
      obtain ⟨others, rfl, sameLength, pairs⟩ := object_coincides.mp coincide
      obtain ⟨othersNamed, othersOrderly⟩ := orderly_object.mp rightOrderly
      refine object_coincides.mpr ⟨members, rfl, sameLength.symm, ?_⟩
      intro other isOther
      have known := Entries.names_subset named sameLength
        (fun member found => (pairs member found).imp fun _ both => both.1)
        (List.mem_map_of_mem isOther)
      obtain ⟨member, isMember, sameName⟩ := List.mem_map.mp known
      obtain ⟨found, isFound, coincide⟩ := pairs member isMember
      rw [sameName, Entries.lookup_of_mem othersNamed isOther] at isFound
      cases isFound
      refine ⟨member.2, ?_, ?_⟩
      · rw [← sameName]
        exact Entries.lookup_of_mem named isMember
      · exact induction member isMember (othersOrderly other isOther) coincide

theorem forall₂_trans {α : Type} {relation : α → α → Prop} {first second third : List α}
    (trans : ∀ left ∈ first, ∀ middle ∈ second, ∀ right ∈ third,
      relation left middle → relation middle right → relation left right)
    (leftPairs : List.Forall₂ relation first second)
    (rightPairs : List.Forall₂ relation second third) : List.Forall₂ relation first third := by
  induction leftPairs generalizing third with
  | nil => exact rightPairs
  | @cons left middle first second related _ induction =>
      cases rightPairs with
      | @cons _ right _ third relatedRight rightPairs =>
          refine .cons ?_ (induction ?_ rightPairs)
          · exact trans left (by simp) middle (by simp) right (by simp) related relatedRight
          · intro left isLeft middle isMiddle right isRight
            exact trans left (by simp [isLeft]) middle (by simp [isMiddle]) right (by simp [isRight])

theorem Orderly.coincides_trans {left middle right : Value} (leftOrderly : left.Orderly)
    (middleOrderly : middle.Orderly) (rightOrderly : right.Orderly)
    (first : left.coincides middle = true) (second : middle.coincides right = true) :
    left.coincides right = true := by
  induction leftOrderly generalizing middle right with
  | null =>
      cases null_coincides.mp first
      exact second
  | number counts notNaN =>
      obtain ⟨number, middleCounts, middleNotNaN, same⟩ := (number_coincides counts notNaN).mp first
      obtain ⟨third, rightCounts, rightNotNaN, sameRight⟩ :=
        (number_coincides middleCounts middleNotNaN).mp second
      exact (number_coincides counts notNaN).mpr
        ⟨third, rightCounts, rightNotNaN, same.trans sameRight⟩
  | text text =>
      cases text_coincides.mp first
      exact second
  | moment moment =>
      obtain ⟨instant, rfl, same⟩ := moment_coincides.mp first
      obtain ⟨third, rfl, sameRight⟩ := moment_coincides.mp second
      refine moment_coincides.mpr ⟨third, rfl, ?_⟩
      rw [Moment.order?_eq_some_eq] at same sameRight ⊢
      exact ⟨same.1.trans sameRight.1, same.2.trans sameRight.2⟩
  | @list items _ induction =>
      obtain ⟨others, rfl, pairs⟩ := list_coincides.mp first
      obtain ⟨thirds, rfl, rightPairs⟩ := list_coincides.mp second
      have othersOrderly := orderly_list.mp middleOrderly
      have thirdsOrderly := orderly_list.mp rightOrderly
      refine list_coincides.mpr ⟨thirds, rfl, forall₂_trans ?_ pairs rightPairs⟩
      intro item isItem other isOther third isThird
      exact induction item isItem (othersOrderly other isOther) (thirdsOrderly third isThird)
  | @object members named _ induction =>
      obtain ⟨others, rfl, sameLength, pairs⟩ := object_coincides.mp first
      obtain ⟨thirds, rfl, sameLengthRight, rightPairs⟩ := object_coincides.mp second
      have othersOrderly := (orderly_object.mp middleOrderly).2
      have thirdsOrderly := (orderly_object.mp rightOrderly).2
      refine object_coincides.mpr ⟨thirds, rfl, sameLength.trans sameLengthRight, ?_⟩
      intro member isMember
      obtain ⟨other, isOther, coincide⟩ := pairs member isMember
      have otherMember := Entries.mem_of_lookup isOther
      obtain ⟨third, isThird, coincideRight⟩ := rightPairs _ otherMember
      refine ⟨third, isThird, ?_⟩
      exact induction member isMember (othersOrderly _ otherMember)
        (thirdsOrderly _ (Entries.mem_of_lookup isThird)) coincide coincideRight

theorem Orderly.coincides_left {left middle right : Value} (leftOrderly : left.Orderly)
    (middleOrderly : middle.Orderly) (rightOrderly : right.Orderly)
    (coincide : left.coincides middle = true) : left.coincides right = middle.coincides right := by
  refine Bool.eq_iff_iff.mpr ⟨?_, ?_⟩
  · intro found
    exact middleOrderly.coincides_trans leftOrderly rightOrderly
      (leftOrderly.coincides_symm middleOrderly coincide) found
  · exact leftOrderly.coincides_trans middleOrderly rightOrderly coincide

theorem Orderly.coincides_comm {left right : Value} (leftOrderly : left.Orderly)
    (rightOrderly : right.Orderly) : left.coincides right = right.coincides left :=
  Bool.eq_iff_iff.mpr
    ⟨leftOrderly.coincides_symm rightOrderly, rightOrderly.coincides_symm leftOrderly⟩

/-! ## Comparing -/

end Value

namespace Comparison

/-- The comparison with the two sides exchanged. -/
def swap : Comparison → Comparison
  | .ordered ordering => .ordered ordering.swap
  | other => other

end Comparison

namespace Value

theorem compareWith_numbers {left right : Value} {leftNumber rightNumber : Number}
    (leftCounts : left.number? = some leftNumber) (rightCounts : right.number? = some rightNumber) :
    left.compareWith right = Comparison.ofNumbers (leftNumber.order? rightNumber) := by
  cases left <;> cases leftCounts <;> cases right <;> cases rightCounts <;> rfl

theorem compareWith_number_other {left right : Value} {number : Number}
    (counts : left.number? = some number) (other : right.number? = none) :
    left.compareWith right = .incomparable := by
  cases left <;> cases counts <;> cases right <;> first | rfl | cases other

theorem compareWith_other_number {left right : Value} {number : Number}
    (counts : right.number? = some number) (other : left.number? = none) :
    left.compareWith right = .incomparable := by
  cases right <;> cases counts <;> cases left <;> first | rfl | cases other

theorem Orderly.notNaN {value : Value} {number : Number} (orderly : value.Orderly)
    (counts : value.number? = some number) : number.isNaN = false := by
  cases orderly with
  | number known notNaN =>
      cases known.symm.trans counts
      exact notNaN
  | _ => cases counts

theorem compareItems_left {items others : List Value} (thirds : List Value)
    (pairs : List.Forall₂ (fun item other => item.coincides other = true) items others)
    (itemsOrderly : ∀ item ∈ items, item.Orderly) (othersOrderly : ∀ other ∈ others, other.Orderly)
    (thirdsOrderly : ∀ third ∈ thirds, third.Orderly)
    (each : ∀ item ∈ items, ∀ {middle right : Value}, middle.Orderly → right.Orderly →
      item.coincides middle = true → item.compareWith right = middle.compareWith right) :
    compareItems items thirds = compareItems others thirds := by
  induction pairs generalizing thirds with
  | nil => rfl
  | @cons item other items others coincide pairs induction =>
      simp only [List.forall_mem_cons] at itemsOrderly othersOrderly each
      cases thirds with
      | nil => rfl
      | cons third thirds =>
          simp only [List.forall_mem_cons] at thirdsOrderly
          rw [compareItems, compareItems, each.1 othersOrderly.1 thirdsOrderly.1 coincide,
            itemsOrderly.1.coincides_left othersOrderly.1 thirdsOrderly.1 coincide,
            induction thirds itemsOrderly.2 othersOrderly.2 thirdsOrderly.2 each.2]

/-- Values that coincide stand in the same place among all others. -/
theorem Orderly.compareWith_left {left middle right : Value} (leftOrderly : left.Orderly)
    (middleOrderly : middle.Orderly) (rightOrderly : right.Orderly)
    (coincide : left.coincides middle = true) :
    left.compareWith right = middle.compareWith right := by
  induction leftOrderly generalizing middle right with
  | null =>
      cases null_coincides.mp coincide
      rfl
  | number counts notNaN =>
      obtain ⟨number, middleCounts, middleNotNaN, same⟩ := (number_coincides counts notNaN).mp coincide
      cases other : right.number? with
      | none =>
          rw [compareWith_number_other counts other, compareWith_number_other middleCounts other]
      | some third =>
          have thirdNotNaN := rightOrderly.notNaN other
          rw [compareWith_numbers counts other, compareWith_numbers middleCounts other,
            Number.order?_eq notNaN thirdNotNaN, Number.order?_eq middleNotNaN thirdNotNaN, same]
  | text text =>
      cases text_coincides.mp coincide
      rfl
  | moment moment =>
      obtain ⟨instant, rfl, same⟩ := moment_coincides.mp coincide
      obtain ⟨sameOffset, sameInstant⟩ := Moment.order?_eq_some_eq.mp same
      cases right with
      | moment third =>
          simp only [compareWith, compareAtoms, Moment.order?_eq, sameOffset, sameInstant]
      | _ => rfl
  | @list items each induction =>
      obtain ⟨others, rfl, pairs⟩ := list_coincides.mp coincide
      cases right with
      | list thirds =>
          exact compareItems_left thirds pairs each (orderly_list.mp middleOrderly)
            (orderly_list.mp rightOrderly) induction
      | _ => rfl
  | @object members named _ induction =>
      obtain ⟨others, rfl, _⟩ := object_coincides.mp coincide
      cases right <;> rfl

theorem compareItems_swap {items others : List Value}
    (itemsOrderly : ∀ item ∈ items, item.Orderly) (othersOrderly : ∀ other ∈ others, other.Orderly)
    (each : ∀ item ∈ items, ∀ {other : Value}, other.Orderly →
      other.compareWith item = (item.compareWith other).swap) :
    compareItems others items = (compareItems items others).swap := by
  induction items generalizing others with
  | nil => cases others <;> rfl
  | cons item items induction =>
      cases others with
      | nil => rfl
      | cons other others =>
          simp only [List.forall_mem_cons] at itemsOrderly othersOrderly each
          rw [compareItems, compareItems, othersOrderly.1.coincides_comm itemsOrderly.1,
            each.1 othersOrderly.1, induction itemsOrderly.2 othersOrderly.2 each.2]
          split <;> rfl

/-- Comparing the other way round turns the outcome around. -/
theorem Orderly.compareWith_swap {left right : Value} (leftOrderly : left.Orderly)
    (rightOrderly : right.Orderly) : right.compareWith left = (left.compareWith right).swap := by
  induction leftOrderly generalizing right with
  | null => cases right <;> rfl
  | number counts notNaN =>
      cases other : right.number? with
      | none =>
          rw [compareWith_number_other counts other, compareWith_other_number counts other]
          rfl
      | some number =>
          have otherNotNaN := rightOrderly.notNaN other
          rw [compareWith_numbers counts other, compareWith_numbers other counts,
            Number.order?_eq notNaN otherNotNaN, Number.order?_eq otherNotNaN notNaN]
          change Comparison.ordered _ = .ordered (Ordering.swap _)
          rw [← Std.OrientedCmp.eq_swap]
  | text text =>
      cases right with
      | text other =>
          change Comparison.ordered (compare other text) = .ordered (compare text other).swap
          rw [← Std.OrientedCmp.eq_swap]
      | _ => rfl
  | moment moment =>
      cases right with
      | moment instant =>
          simp only [compareWith, compareAtoms, moment.order?_swap instant]
          cases moment.order? instant <;> rfl
      | _ => rfl
  | @list items each induction =>
      cases right with
      | list others => exact compareItems_swap each (orderly_list.mp rightOrderly) induction
      | _ => rfl
  | object _ _ => cases right <;> rfl

theorem Orderly.compareWith_right {left middle right : Value} (leftOrderly : left.Orderly)
    (middleOrderly : middle.Orderly) (rightOrderly : right.Orderly)
    (coincide : middle.coincides right = true) :
    left.compareWith middle = left.compareWith right := by
  rw [middleOrderly.compareWith_swap leftOrderly, rightOrderly.compareWith_swap leftOrderly,
    middleOrderly.compareWith_left rightOrderly leftOrderly coincide]

theorem Orderly.coincides_right {left middle right : Value} (leftOrderly : left.Orderly)
    (middleOrderly : middle.Orderly) (rightOrderly : right.Orderly)
    (coincide : middle.coincides right = true) : left.coincides middle = left.coincides right := by
  rw [leftOrderly.coincides_comm middleOrderly, leftOrderly.coincides_comm rightOrderly,
    middleOrderly.coincides_left rightOrderly leftOrderly coincide]

theorem Orderly.not_before_self {value : Value} (orderly : value.Orderly) :
    value.compareWith value ≠ .ordered .lt := by
  intro before
  have swapped := orderly.compareWith_swap orderly
  rw [before] at swapped
  cases swapped

/-- A value that comes before another one does not coincide with it. -/
theorem Orderly.coincides_of_before {left right : Value} (leftOrderly : left.Orderly)
    (rightOrderly : right.Orderly) (before : left.compareWith right = .ordered .lt) :
    left.coincides right = false := by
  by_contra coincide
  rw [Bool.not_eq_false] at coincide
  rw [leftOrderly.compareWith_left rightOrderly rightOrderly coincide] at before
  exact rightOrderly.not_before_self before

theorem moment_before {left right : Moment} :
    compareWith (.moment left) (.moment right) = .ordered .lt ↔ left.order? right = some .lt := by
  simp only [compareWith, compareAtoms]
  cases left.order? right <;> simp

theorem compareItems_trans {items others thirds : List Value}
    (itemsOrderly : ∀ item ∈ items, item.Orderly) (othersOrderly : ∀ other ∈ others, other.Orderly)
    (thirdsOrderly : ∀ third ∈ thirds, third.Orderly)
    (each : ∀ item ∈ items, ∀ {middle right : Value}, middle.Orderly → right.Orderly →
      item.compareWith middle = .ordered .lt → middle.compareWith right = .ordered .lt →
        item.compareWith right ≠ .incomparable → item.compareWith right = .ordered .lt)
    (first : compareItems items others = .ordered .lt)
    (second : compareItems others thirds = .ordered .lt)
    (comparable : compareItems items thirds ≠ .incomparable) :
    compareItems items thirds = .ordered .lt := by
  induction items generalizing others thirds with
  | nil =>
      cases thirds with
      | nil => cases others <;> cases second
      | cons third thirds => rfl
  | cons item items induction =>
      cases others with
      | nil => cases first
      | cons other others =>
          cases thirds with
          | nil => cases second
          | cons third thirds =>
              simp only [List.forall_mem_cons] at itemsOrderly othersOrderly thirdsOrderly each
              rw [compareItems] at first second comparable ⊢
              have item' := itemsOrderly.1
              have other' := othersOrderly.1
              have third' := thirdsOrderly.1
              -- Where the first lists differ and where the last ones do decides between the cases.
              cases same : item.coincides other with
              | true =>
                  rw [same, if_pos rfl] at first
                  rw [item'.coincides_left other' third' same] at comparable ⊢
                  cases sameRight : other.coincides third with
                  | true =>
                      rw [sameRight, if_pos rfl] at second comparable
                      rw [if_pos rfl]
                      exact induction itemsOrderly.2 othersOrderly.2 thirdsOrderly.2 each.2 first
                        second comparable
                  | false =>
                      rw [sameRight, if_neg Bool.false_ne_true] at second
                      rw [if_neg Bool.false_ne_true, item'.compareWith_left other' third' same]
                      exact second
              | false =>
                  rw [same, if_neg Bool.false_ne_true] at first
                  cases sameRight : other.coincides third with
                  | true =>
                      rw [← item'.coincides_right other' third' sameRight, same,
                        if_neg Bool.false_ne_true, ← item'.compareWith_right other' third' sameRight]
                      exact first
                  | false =>
                      rw [sameRight, if_neg Bool.false_ne_true] at second
                      have differ : item.coincides third = false := by
                        by_contra coincide
                        rw [Bool.not_eq_false] at coincide
                        have turned := item'.compareWith_swap other'
                        rw [other'.compareWith_right item' third' coincide, second, first] at turned
                        cases turned
                      rw [differ, if_neg Bool.false_ne_true] at comparable
                      rw [differ, if_neg Bool.false_ne_true]
                      exact each.1 other' third' first second comparable

theorem Orderly.before_trans {left middle right : Value} (leftOrderly : left.Orderly)
    (middleOrderly : middle.Orderly) (rightOrderly : right.Orderly)
    (first : left.compareWith middle = .ordered .lt)
    (second : middle.compareWith right = .ordered .lt)
    (comparable : left.compareWith right ≠ .incomparable) :
    left.compareWith right = .ordered .lt := by
  induction leftOrderly generalizing middle right with
  | null => cases middle <;> cases first
  | number counts notNaN =>
      cases middleCounts : middle.number? with
      | none =>
          rw [compareWith_number_other counts middleCounts] at first
          cases first
      | some number =>
          cases rightCounts : right.number? with
          | none => cases comparable (compareWith_number_other counts rightCounts)
          | some third =>
              have middleNotNaN := middleOrderly.notNaN middleCounts
              have rightNotNaN := rightOrderly.notNaN rightCounts
              rw [compareWith_numbers counts middleCounts,
                Number.order?_eq notNaN middleNotNaN] at first
              rw [compareWith_numbers middleCounts rightCounts,
                Number.order?_eq middleNotNaN rightNotNaN] at second
              rw [compareWith_numbers counts rightCounts, Number.order?_eq notNaN rightNotNaN]
              injection first with first
              injection second with second
              exact congrArg Comparison.ordered (Std.TransCmp.lt_trans first second)
  | text text =>
      cases middle with
      | text other =>
          cases right with
          | text third =>
              injection first with first
              injection second with second
              exact congrArg Comparison.ordered (Std.TransCmp.lt_trans first second)
          | _ => cases comparable rfl
      | _ => cases first
  | moment moment =>
      cases middle with
      | moment instant =>
          cases right with
          | moment third =>
              rw [moment_before, Moment.order?_eq_some_lt] at first second ⊢
              exact ⟨first.1.trans second.1, first.2.trans second.2⟩
          | _ => cases comparable rfl
      | _ => cases first
  | @list items each induction =>
      cases middle with
      | list others =>
          cases right with
          | list thirds =>
              exact compareItems_trans each (orderly_list.mp middleOrderly)
                (orderly_list.mp rightOrderly) induction first second comparable
          | _ => cases comparable rfl
      | _ => cases first
  | object _ _ => cases middle <;> cases first

theorem compareItems_strict {items others : List Value}
    (itemsOrderly : ∀ item ∈ items, item.Orderly) (othersOrderly : ∀ other ∈ others, other.Orderly)
    (each : ∀ item ∈ items, ∀ {other : Value}, other.Orderly → item.coincides other = false →
      item.compareWith other ≠ .incomparable →
        item.compareWith other = .ordered .lt ∨ item.compareWith other = .ordered .gt)
    (differ : ¬ List.Forall₂ (fun item other => item.coincides other = true) items others)
    (comparable : compareItems items others ≠ .incomparable) :
    compareItems items others = .ordered .lt ∨ compareItems items others = .ordered .gt := by
  induction items generalizing others with
  | nil =>
      cases others with
      | nil => cases differ .nil
      | cons other others => exact .inl rfl
  | cons item items induction =>
      cases others with
      | nil => exact .inr rfl
      | cons other others =>
          simp only [List.forall_mem_cons] at itemsOrderly othersOrderly each
          rw [List.forall₂_cons] at differ
          rw [compareItems] at comparable ⊢
          cases same : item.coincides other with
          | true =>
              rw [same, if_pos rfl] at comparable
              rw [if_pos rfl]
              exact induction itemsOrderly.2 othersOrderly.2 each.2
                (fun pairs => differ ⟨same, pairs⟩) comparable
          | false =>
              rw [same, if_neg Bool.false_ne_true] at comparable
              rw [if_neg Bool.false_ne_true]
              exact each.1 othersOrderly.1 same comparable

/-- Of two values that can be compared and do not coincide, one comes first. -/
theorem Orderly.compareWith_strict {left right : Value} (leftOrderly : left.Orderly)
    (rightOrderly : right.Orderly) (differ : left.coincides right = false)
    (comparable : left.compareWith right ≠ .incomparable) :
    left.compareWith right = .ordered .lt ∨ left.compareWith right = .ordered .gt := by
  induction leftOrderly generalizing right with
  | null => cases right <;> cases comparable rfl
  | @number _ number counts notNaN =>
      cases rightCounts : right.number? with
      | none => cases comparable (compareWith_number_other counts rightCounts)
      | some other =>
          have rightNotNaN := rightOrderly.notNaN rightCounts
          rw [compareWith_numbers counts rightCounts, Number.order?_eq notNaN rightNotNaN]
          cases ordering : compare number.rank other.rank with
          | lt => exact .inl rfl
          | gt => exact .inr rfl
          | eq =>
              have same := (number_coincides counts notNaN).mpr
                ⟨other, rightCounts, rightNotNaN, Std.LawfulEqCmp.eq_of_compare ordering⟩
              rw [differ] at same
              cases same
  | text text =>
      cases right with
      | text other =>
          change Comparison.ordered (compare text other) = _ ∨ Comparison.ordered (compare text other) = _
          cases ordering : compare text other with
          | lt => exact .inl rfl
          | gt => exact .inr rfl
          | eq =>
              have same := text_coincides.mpr
                (congrArg Value.text (Std.LawfulEqCmp.eq_of_compare ordering))
              rw [differ] at same
              cases same
      | _ => cases comparable rfl
  | moment moment =>
      cases right with
      | moment instant =>
          simp only [compareWith, compareAtoms] at comparable ⊢
          cases order : moment.order? instant with
          | none => simp [order] at comparable
          | some ordering =>
              cases ordering with
              | lt => exact .inl rfl
              | gt => exact .inr rfl
              | eq =>
                  have same := moment_coincides.mpr ⟨instant, rfl, order⟩
                  rw [differ] at same
                  cases same
      | _ => cases comparable rfl
  | @list items each induction =>
      cases right with
      | list others =>
          refine compareItems_strict each (orderly_list.mp rightOrderly) induction ?_ comparable
          intro pairs
          have same := list_coincides.mpr ⟨others, rfl, pairs⟩
          rw [differ] at same
          cases same
      | _ => cases comparable rfl
  | object _ _ => cases right <;> cases comparable rfl

/-! ## Sorting -/

theorem isNull_iff {value : Value} : value.isNull = true ↔ value = .null := by
  cases value <;> simp [isNull]

theorem isNull_eq_false {value : Value} : value.isNull = false ↔ value ≠ .null := by
  rw [← Bool.not_eq_true, ne_eq, isNull_iff]

theorem precedes_null_left {right : Value} : Value.null.precedes right = !right.isNull := rfl

theorem precedes_null_right {left : Value} : left.precedes .null = false := by
  cases left <;> rfl

theorem Orderly.precedes_iff {left right : Value} (leftOrderly : left.Orderly)
    (rightOrderly : right.Orderly) (leftValue : left.isNull = false)
    (rightValue : right.isNull = false) :
    left.precedes right = true ↔ left.compareWith right = .ordered .lt := by
  simp only [precedes, leftValue, rightValue, Bool.false_eq_true, if_false, Bool.and_eq_true,
    Bool.not_eq_true', beq_iff_eq, and_iff_right_iff_imp]
  exact leftOrderly.coincides_of_before rightOrderly

theorem Orderly.precedes_asymm {left right : Value} (leftOrderly : left.Orderly)
    (rightOrderly : right.Orderly) (before : left.precedes right = true) :
    right.precedes left = false := by
  by_contra after
  rw [Bool.not_eq_false] at after
  cases leftNull : left.isNull with
  | true =>
      rw [isNull_iff.mp leftNull, precedes_null_right] at after
      cases after
  | false =>
      cases rightNull : right.isNull with
      | true =>
          rw [isNull_iff.mp rightNull, precedes_null_right] at before
          cases before
      | false =>
          rw [leftOrderly.precedes_iff rightOrderly leftNull rightNull] at before
          rw [rightOrderly.precedes_iff leftOrderly rightNull leftNull,
            leftOrderly.compareWith_swap rightOrderly, before] at after
          cases after

theorem comparable_of_sortable {left right : Value} (sortable : left.isSortableWith right = true)
    (leftValue : left.isNull = false) (rightValue : right.isNull = false)
    (differ : left.coincides right = false) : left.compareWith right ≠ .incomparable := by
  simpa [isSortableWith, leftValue, rightValue, differ] using sortable

/-- When one value comes before another one, every third value comes after the first or before
the second. -/
theorem Orderly.precedes_or {left middle right : Value} (leftOrderly : left.Orderly)
    (middleOrderly : middle.Orderly) (rightOrderly : right.Orderly)
    (sortableLeft : left.isSortableWith middle = true)
    (sortableRight : middle.isSortableWith right = true) (before : left.precedes right = true) :
    left.precedes middle = true ∨ middle.precedes right = true := by
  cases rightNull : right.isNull with
  | true =>
      rw [isNull_iff.mp rightNull, precedes_null_right] at before
      cases before
  | false =>
      cases middleNull : middle.isNull with
      | true =>
          rw [isNull_iff.mp middleNull, precedes_null_left, rightNull]
          exact .inr rfl
      | false =>
          cases leftNull : left.isNull with
          | true =>
              rw [isNull_iff.mp leftNull, precedes_null_left, middleNull]
              exact .inl rfl
          | false =>
              rw [leftOrderly.precedes_iff rightOrderly leftNull rightNull] at before
              rw [leftOrderly.precedes_iff middleOrderly leftNull middleNull,
                middleOrderly.precedes_iff rightOrderly middleNull rightNull]
              cases same : left.coincides middle with
              | true =>
                  rw [leftOrderly.compareWith_left middleOrderly rightOrderly same] at before
                  exact .inr before
              | false =>
                  cases sameRight : middle.coincides right with
                  | true =>
                      rw [← leftOrderly.compareWith_right middleOrderly rightOrderly sameRight]
                        at before
                      exact .inl before
                  | false =>
                      have comparable := comparable_of_sortable sortableLeft leftNull middleNull same
                      cases leftOrderly.compareWith_strict middleOrderly same comparable with
                      | inl first => exact .inl first
                      | inr after =>
                          have turned := leftOrderly.compareWith_swap middleOrderly
                          rw [after] at turned
                          exact .inr (middleOrderly.before_trans leftOrderly rightOrderly turned
                            before (comparable_of_sortable sortableRight middleNull rightNull
                              sameRight))

theorem Orderly.isSortableWith_comm {left right : Value} (leftOrderly : left.Orderly)
    (rightOrderly : right.Orderly) : left.isSortableWith right = right.isSortableWith left := by
  unfold isSortableWith
  rw [leftOrderly.coincides_comm rightOrderly, leftOrderly.compareWith_swap rightOrderly,
    Bool.or_comm left.isNull]
  cases left.compareWith right <;> rfl

theorem Orderly.isSortableWith_self {value : Value} (orderly : value.Orderly) :
    value.isSortableWith value = true := by
  simp [isSortableWith, orderly.coincides_self]

end Value

end ResourceServer
