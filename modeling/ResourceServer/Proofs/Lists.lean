import Mathlib.Data.List.Forall2

/-!
# Lists related item by item

What is true of two lists whose items are related one by one: tests that cannot tell related
items apart count and keep the same places, and a step that is tried on every item yields a
list of results when it yields each of them.
-/

namespace ResourceServer

variable {α β γ ε : Type} {relation : α → β → Prop}

/-- Lists that are related item by item are the two sides of one list of related pairs. -/
theorem exists_pairs {items : List α} {others : List β}
    (related : List.Forall₂ relation items others) :
    ∃ pairs : List { pair : α × β // relation pair.1 pair.2 },
      pairs.map (fun pair => pair.val.1) = items ∧
        pairs.map (fun pair => pair.val.2) = others := by
  induction related with
  | nil => exact ⟨[], rfl, rfl⟩
  | @cons item other items others holds _ induction =>
      obtain ⟨pairs, rfl, rfl⟩ := induction
      exact ⟨⟨(item, other), holds⟩ :: pairs, rfl, rfl⟩

theorem forall₂_pairs (pairs : List { pair : α × β // relation pair.1 pair.2 }) :
    List.Forall₂ relation (pairs.map fun pair => pair.val.1) (pairs.map fun pair => pair.val.2) := by
  induction pairs with
  | nil => exact .nil
  | cons pair rest induction => exact .cons pair.property induction

theorem countP_eq_of_forall₂ {items : List α} {others : List β} {test : α → Bool}
    {testOther : β → Bool} (related : List.Forall₂ relation items others)
    (agree : ∀ item other, relation item other → test item = testOther other) :
    items.countP test = others.countP testOther := by
  induction related with
  | nil => rfl
  | cons holds _ induction => rw [List.countP_cons, List.countP_cons, induction, agree _ _ holds]

theorem any_eq_of_forall₂ {items : List α} {others : List β} {test : α → Bool}
    {testOther : β → Bool} (related : List.Forall₂ relation items others)
    (agree : ∀ item other, relation item other → test item = testOther other) :
    items.any test = others.any testOther := by
  induction related with
  | nil => rfl
  | cons holds _ induction => rw [List.any_cons, List.any_cons, induction, agree _ _ holds]

theorem map_eq_of_forall₂ {items : List α} {others : List β} {image : α → γ} {otherImage : β → γ}
    (related : List.Forall₂ relation items others)
    (agree : ∀ item other, relation item other → image item = otherImage other) :
    items.map image = others.map otherImage := by
  induction related with
  | nil => rfl
  | cons holds _ induction => rw [List.map_cons, List.map_cons, induction, agree _ _ holds]

theorem forall₂_filter {items : List α} {others : List β} {test : α → Bool}
    {testOther : β → Bool} (related : List.Forall₂ relation items others)
    (agree : ∀ item other, relation item other → test item = testOther other) :
    List.Forall₂ relation (items.filter test) (others.filter testOther) := by
  induction related with
  | nil => exact .nil
  | cons holds _ induction =>
      rw [List.filter_cons, List.filter_cons, agree _ _ holds]
      split
      · exact .cons holds induction
      · exact induction

theorem exists_forall₂ {items : List α}
    (each : ∀ item ∈ items, ∃ other, relation item other) :
    ∃ others, List.Forall₂ relation items others := by
  induction items with
  | nil => exact ⟨[], List.Forall₂.nil⟩
  | cons item items induction =>
      rw [List.forall_mem_cons] at each
      obtain ⟨other, related⟩ := each.1
      obtain ⟨others, rest⟩ := induction each.2
      exact ⟨other :: others, List.Forall₂.cons related rest⟩

theorem exists_of_mem_right {items : List α} {others : List β}
    (each : List.Forall₂ relation items others) {other : β} (member : other ∈ others) :
    ∃ item ∈ items, relation item other := by
  induction each with
  | nil => cases member
  | cons related rest induction =>
      cases List.mem_cons.mp member with
      | inl same =>
          subst same
          exact ⟨_, List.mem_cons_self, related⟩
      | inr later =>
          obtain ⟨item, isItem, relatedLater⟩ := induction later
          exact ⟨item, List.mem_cons_of_mem _ isItem, relatedLater⟩

theorem exists_of_mem_left {items : List α} {others : List β}
    (each : List.Forall₂ relation items others) {item : α} (member : item ∈ items) :
    ∃ other ∈ others, relation item other := by
  induction each with
  | nil => cases member
  | cons related rest induction =>
      cases List.mem_cons.mp member with
      | inl same =>
          subst same
          exact ⟨_, List.mem_cons_self, related⟩
      | inr later =>
          obtain ⟨other, inRest, related⟩ := induction later
          exact ⟨other, List.mem_cons_of_mem _ inRest, related⟩

theorem pairwise_of_forall₂ {items : List α} {others : List β}
    {before : β → β → Prop} {stands : α → α → Prop} (each : List.Forall₂ relation items others)
    (pairwise : others.Pairwise before)
    (carries : ∀ item next other otherNext, relation item other → relation next otherNext →
      before other otherNext → stands item next) : items.Pairwise stands := by
  induction each with
  | nil => exact List.Pairwise.nil
  | @cons item other items others related rest induction =>
      rw [List.pairwise_cons] at pairwise ⊢
      refine ⟨fun next isNext => ?_, induction pairwise.2⟩
      obtain ⟨otherNext, isOther, relatedNext⟩ := exists_of_mem_right rest.flip isNext
      exact carries item next other otherNext related relatedNext (pairwise.1 otherNext isOther)

/-- Lists that are related item by item end in related items. -/
theorem getLast?_of_forall₂ {items : List α} {others : List β}
    (each : List.Forall₂ relation items others) :
    Option.Rel relation items.getLast? others.getLast? := by
  have reversed := List.forall₂_reverse_iff.mpr each
  rw [← List.head?_reverse, ← List.head?_reverse]
  generalize items.reverse = lasts at reversed ⊢
  generalize others.reverse = otherLasts at reversed ⊢
  cases reversed with
  | nil => exact .none
  | cons holds _ => exact .some holds

/-! ## Steps that may fail -/

theorem mapM_of_forall₂ {step : α → Except ε β} {items : List α} {results : List β}
    (each : List.Forall₂ (fun item result => step item = .ok result) items results) :
    items.mapM step = .ok results := by
  induction each with
  | nil => rfl
  | cons first rest induction =>
      rw [List.mapM_cons, first, induction]
      rfl

/-- Steps that agree on related items agree on the lists. -/
theorem mapM_eq_of_forall₂ {step : α → Except ε γ} {otherStep : β → Except ε γ} {items : List α}
    {others : List β} (related : List.Forall₂ relation items others)
    (agree : ∀ item other, relation item other → step item = otherStep other) :
    items.mapM step = others.mapM otherStep := by
  induction related with
  | nil => rfl
  | cons holds _ induction => rw [List.mapM_cons, List.mapM_cons, induction, agree _ _ holds]

/-- A list of results holds the result of every item. -/
theorem mapM_eq_ok {step : α → Except ε β} {items : List α} {results : List β} :
    items.mapM step = .ok results ↔
      List.Forall₂ (fun item result => step item = .ok result) items results := by
  refine ⟨fun done => ?_, mapM_of_forall₂⟩
  induction items generalizing results with
  | nil =>
      cases done
      exact .nil
  | cons item rest induction =>
      rw [List.mapM_cons] at done
      cases first : step item with
      | error error =>
          rw [first] at done
          cases done
      | ok value =>
          cases others : rest.mapM step with
          | error error =>
              rw [first, others] at done
              cases done
          | ok values =>
              rw [first, others] at done
              cases done
              exact .cons first (induction others)

/-- Steps that are tried one after another fail as one of them does. -/
theorem exists_of_mapM_error {step : α → Except ε β} {items : List α} {error : ε}
    (failed : items.mapM step = .error error) : ∃ item ∈ items, step item = .error error := by
  induction items with
  | nil => cases failed
  | cons item rest induction =>
      rw [List.mapM_cons] at failed
      cases first : step item with
      | error cause =>
          rw [first] at failed
          cases failed
          exact ⟨item, List.mem_cons_self, first⟩
      | ok value =>
          cases others : rest.mapM step with
          | error cause =>
              rw [first, others] at failed
              cases failed
              obtain ⟨other, inRest, isError⟩ := induction others
              exact ⟨other, List.mem_cons_of_mem item inRest, isError⟩
          | ok values =>
              rw [first, others] at failed
              cases failed

/-- Steps that are taken one after another, each from where the last one led, fail where one of them
does. -/
theorem foldlM_eq_error {step : β → α → Except ε β} {items : List α} {start : β} {error : ε}
    (failed : items.foldlM step start = .error error) :
    ∃ done item rest reached, items = done ++ item :: rest ∧
      done.foldlM step start = .ok reached ∧ step reached item = .error error := by
  induction items generalizing start with
  | nil => cases failed
  | cons item rest induction =>
      rw [List.foldlM_cons] at failed
      cases first : step start item with
      | error cause =>
          rw [first] at failed
          cases failed
          exact ⟨[], item, rest, start, rfl, rfl, first⟩
      | ok next =>
          rw [first] at failed
          obtain ⟨done, last, later, reached, rfl, reaches, fails⟩ := induction failed
          refine ⟨item :: done, last, later, reached, rfl, ?_, fails⟩
          rw [List.foldlM_cons, first]
          exact reaches

/-- When steps lead to the end, none of them has failed, and what every step keeps holds there. -/
theorem foldlM_eq_ok {step : β → α → Except ε β} {items : List α} {start final : β}
    (property : β → Prop) (starts : property start)
    (keeps : ∀ item ∈ items, ∀ value next, property value → step value item = .ok next →
      property next) (done : items.foldlM step start = .ok final) :
    property final ∧ ∀ item ∈ items, ∃ value next, step value item = .ok next := by
  induction items generalizing start with
  | nil =>
      cases done
      exact ⟨starts, nofun⟩
  | cons item rest induction =>
      rw [List.foldlM_cons] at done
      cases first : step start item with
      | error cause =>
          rw [first] at done
          cases done
      | ok next =>
          rw [first] at done
          rw [List.forall_mem_cons] at keeps ⊢
          obtain ⟨holds, passes⟩ := induction (keeps.1 start next starts first) keeps.2 done
          exact ⟨holds, ⟨start, next, first⟩, passes⟩

/-- When every step reads its item and adds what it has read, the items are read first and then added
one after another. -/
theorem foldlM_eq_foldl {step : γ → α → Except ε γ} {read : α → Except ε β} {passes : β → Prop}
    {add : γ → β → γ}
    (steps : ∀ value item next, step value item = .ok next ↔
      ∃ result, read item = .ok result ∧ passes result ∧ next = add value result)
    {items : List α} {start final : γ} :
    items.foldlM step start = .ok final ↔
      ∃ results, items.mapM read = .ok results ∧ (∀ result ∈ results, passes result) ∧
        final = results.foldl add start := by
  induction items generalizing start with
  | nil =>
      constructor
      · intro done
        cases done
        exact ⟨[], rfl, nofun, rfl⟩
      · rintro ⟨results, done, _, rfl⟩
        cases done
        rfl
  | cons item rest induction =>
      rw [List.foldlM_cons]
      constructor
      · intro done
        cases first : step start item with
        | error cause =>
            rw [first] at done
            cases done
        | ok next =>
            rw [first] at done
            obtain ⟨result, reads, isGood, rfl⟩ := (steps start item next).mp first
            obtain ⟨results, others, areGood, rfl⟩ := induction.mp done
            exact ⟨result :: results, mapM_eq_ok.mpr (.cons reads (mapM_eq_ok.mp others)),
              List.forall_mem_cons.mpr ⟨isGood, areGood⟩, rfl⟩
      · rintro ⟨results, done, areGood, rfl⟩
        cases mapM_eq_ok.mp done with
        | cons reads others =>
            rw [List.forall_mem_cons] at areGood
            rw [(steps start item _).mpr ⟨_, reads, areGood.1, rfl⟩]
            exact induction.mpr ⟨_, mapM_eq_ok.mpr others, areGood.2, rfl⟩

theorem exists_of_mem_mapM {read : α → Except ε β} {items : List α}
    {results : List β} (done : items.mapM read = .ok results) {result : β}
    (member : result ∈ results) : ∃ item ∈ items, read item = .ok result := by
  induction items generalizing results with
  | nil =>
      cases done
      cases member
  | cons item rest induction =>
      rw [List.mapM_cons] at done
      cases first : read item with
      | error error =>
          rw [first] at done
          cases done
      | ok value =>
          cases others : rest.mapM read with
          | error error =>
              rw [first, others] at done
              cases done
          | ok values =>
              rw [first, others] at done
              cases done
              cases List.mem_cons.mp member with
              | inl same => exact ⟨item, List.mem_cons_self, by rw [first, same]⟩
              | inr later =>
                  obtain ⟨other, inRest, isResult⟩ := induction others later
                  exact ⟨other, List.mem_cons_of_mem item inRest, isResult⟩

end ResourceServer
