import ResourceServer.Proofs.Filter.Grammar
import ResourceServer.Proofs.Numeric.Numeral
import ResourceServer.Query.Includes
import ResourceServer.Samples.Library
import ResourceServer.Settings.Reader

/-!
# Faults of parameters

A request whose parameters cannot be used is refused with a fault of the request.  Two readers let
other failures through: the one of whole numbers, on text that passes for a whole number and is
none, and the one of encoded values, on an encoding that is beyond its limits.
-/

namespace ResourceServer

variable {α β : Type}

/-! ## Computations that blame the request -/

/-- Whatever the computation fails with is a fault of the request. -/
def BlamesRequest (result : Except Error α) : Prop :=
  ∀ error, result = .error error → error.isRequestError = true

namespace BlamesRequest

theorem ok (value : α) : BlamesRequest (.ok value : Except Error α) := nofun

theorem error {error : Error} (isFault : error.isRequestError = true) :
    BlamesRequest (.error error : Except Error α) := by
  rintro _ failed
  cases failed
  exact isFault

theorem bind {result : Except Error α} {next : α → Except Error β} (first : BlamesRequest result)
    (rest : ∀ value, result = .ok value → BlamesRequest (next value)) :
    BlamesRequest (result >>= next) := by
  intro error failed
  obtain failed | ⟨value, done, failed⟩ := bind_eq_error.mp failed
  · exact first error failed
  · exact rest value done error failed

theorem mapM {step : α → Except Error β} {items : List α}
    (each : ∀ item ∈ items, BlamesRequest (step item)) : BlamesRequest (items.mapM step) := by
  intro error failed
  obtain ⟨item, member, failed⟩ := exists_of_mapM_error failed
  exact each item member error failed

end BlamesRequest

/-! ## Single parameters -/

namespace Parameter

/-- The text passes for a whole number, but has more than one sign, a digit that is no decimal digit,
or too many digits. -/
def Misleads (text : String) : Prop :=
  looksWhole (Text.trim text) = true ∧
    let characters := (Text.trim text).toList
    let digits := characters.dropWhile (· = '-')
    digits.length + 1 < characters.length ∨
      (∃ digit ∈ digits, Text.decimalValue? digit = none) ∨ Numeral.digitLimit < digits.length

/-- The text encodes a value with a number of too many digits, or one that is nested too deeply. -/
def Overtaxes (text : String) : Prop :=
  (∃ digits, Json.read text = .error (.integerTooLong digits)) ∨ Json.read text = .error .tooDeep

theorem readInt_of_looksWhole {text : String} (whole : looksWhole (Text.trim text) = true) :
    (∃ number, Numeral.readInt (Text.trim text) = .ok number) ↔ ¬Misleads text := by
  have isText := List.takeWhile_append_dropWhile (p := (· = '-')) (l := (Text.trim text).toList)
  have shape := whole
  rw [looksWhole, Bool.and_eq_true, Bool.not_eq_true', List.isEmpty_eq_false_iff,
    List.all_eq_true] at shape
  have lengths := congrArg List.length isText
  rw [List.length_append] at lengths
  have areSigns : ∀ sign ∈ (Text.trim text).toList.takeWhile (· = '-'), sign = '-' := by
    intro sign member
    simpa using List.mem_takeWhile_imp member
  have fewSigns : ((Text.trim text).toList.takeWhile (· = '-')).length ≤ 1 ↔
      (Text.trim text).toList.length ≤
        ((Text.trim text).toList.dropWhile (· = '-')).length + 1 := by
    omega
  rw [Numeral.readInt_signed isText.symm areSigns shape.1 shape.2, Misleads, fewSigns]
  simp only [whole, true_and, not_or, not_exists, not_and, Nat.not_lt,
    ← Option.isSome_iff_ne_none]

/-- The reader of whole numbers lets through only what it fails with on a misleading text. -/
theorem integer_blamesRequest {name : String} {minimum : Int} {value : Value} :
    BlamesRequest (integer name minimum value) ↔ ∀ text, value = .text text → ¬Misleads text := by
  have atLeast : ∀ number : Int, BlamesRequest (if number < minimum then
      .error (.malformed (.belowMinimum name minimum number)) else .ok number) := by
    intro number
    split
    · exact .error rfl
    · exact .ok number
  cases value with
  | int number => exact iff_of_true (.bind (.ok number) fun _ _ => atLeast _) nofun
  | text text =>
      simp only [Value.text.injEq, forall_eq']
      unfold integer
      dsimp only
      split
      · rename_i whole
        rw [← readInt_of_looksWhole whole, wholeNumber]
        split
        · rename_i number isNumber
          exact iff_of_true (.bind (.ok number) fun _ _ => atLeast _) ⟨number, isNumber⟩
        · rename_i fails
          refine iff_of_false (fun blames => ?_) (by simp [fails])
          cases blames _ rfl
        · rename_i fails
          refine iff_of_false (fun blames => ?_) (by simp [fails])
          cases blames _ rfl
      · rename_i fails
        exact iff_of_true (.bind (.error rfl) fun _ _ => atLeast _) fun misleads =>
          fails misleads.1
  | _ => exact iff_of_true (.bind (.error rfl) fun _ _ => atLeast _) nofun

theorem le_of_integer_eq_ok {name : String} {minimum number : Int} {value : Value}
    (read : integer name minimum value = .ok number) : minimum ≤ number := by
  have isChecked : ∃ first : Except Error Int, integer name minimum value = first >>= fun number =>
      if number < minimum then .error (.malformed (.belowMinimum name minimum number))
      else .ok number := by
    unfold integer
    dsimp only
    split
    · exact ⟨_, rfl⟩
    · split
      · exact ⟨_, rfl⟩
      · exact ⟨_, rfl⟩
    · exact ⟨_, rfl⟩
  obtain ⟨first, isChecked⟩ := isChecked
  rw [isChecked] at read
  obtain ⟨found, _, checked⟩ := bind_eq_ok.mp read
  split at checked
  · cases checked
  · rename_i above
    cases checked
    exact Int.not_lt.mp above

/-- The reader of encoded values lets through only what it fails with on an encoding beyond its
limits. -/
theorem decoded_blamesRequest {value : Value} {malformed : String → Error}
    (isFault : ∀ detail, (malformed detail).isRequestError = true) :
    BlamesRequest (decoded value malformed) ↔ ∀ text, value = .text text → ¬Overtaxes text := by
  cases value with
  | text text =>
      simp only [Value.text.injEq, forall_eq']
      unfold decoded Overtaxes
      dsimp only
      split
      · rename_i value read
        exact iff_of_true (.ok value) (by simp [read])
      · rename_i kind offset read
        exact iff_of_true (.error (isFault _)) (by simp [read])
      · rename_i digits read
        refine iff_of_false (fun blames => ?_) (by simp [read])
        cases blames _ rfl
      · rename_i read
        refine iff_of_false (fun blames => ?_) (by simp [read])
        cases blames _ rfl
  | _ => exact iff_of_true (.ok _) nofun

theorem flag_blamesRequest {name : String} {value : Value} : BlamesRequest (flag name value) := by
  unfold flag
  split
  · exact .ok _
  · exact .ok _
  · exact .ok _
  · dsimp only
    split
    · exact .ok _
    · split
      · exact .ok _
      · exact .error rfl
  · exact .error rfl

theorem words_blamesRequest {name : String} {value : Value} :
    BlamesRequest (words name value) := by
  unfold words
  split
  · exact .ok _
  · exact .ok _
  · split
    · exact .ok _
    · exact .error rfl
  · exact .error rfl

end Parameter

/-! ## Query parameters -/

/-- No parameter misleads the reader of whole numbers or overtaxes the one of encoded values. -/
structure Record.IsLegible (parameters : Record) : Prop where
  page : ∀ text, parameters.get "page" = .text text → ¬Parameter.Misleads text
  limit : ∀ text, parameters.get "limit" = .text text → ¬Parameter.Misleads text
  filters : ∀ text, parameters.get "filters" = .text text → ¬Parameter.Overtaxes text
  sort : ∀ text, parameters.get "sort" = .text text → SortDirective.isEncodedList text = true →
    ¬Parameter.Overtaxes text

section Readers

variable {settings : Settings} {resource : Resource} {parameters : Record} {raw : Value}

theorem Filter.Node.ofRequest_blamesRequest
    (legible : ∀ text, raw = .text text → ¬Parameter.Overtaxes text) :
    BlamesRequest (Filter.Node.ofRequest settings resource raw) := by
  have decodes : BlamesRequest (Parameter.decoded raw fun detail =>
      .malformedFilter (.notJson "filters" detail)) :=
    (Parameter.decoded_blamesRequest fun _ => rfl).mpr legible
  refine decodes.bind fun entries isDecoded => ?_
  clear isDecoded
  split
  · exact .ok none
  · exact .ok none
  · rename_i entries nonempty
    intro error failed
    have fails : Filter.Node.ofRequest settings resource (.list entries) = .error error := by
      rw [Filter.Node.ofRequest_list nonempty]
      exact failed
    exact Filter.Node.ofRequest_list_error nonempty fails
  · exact .error rfl

theorem SearchTerm.ofValue_blamesRequest {caseSensitive : Bool} {value : Value} :
    BlamesRequest (SearchTerm.ofValue resource caseSensitive value) := by
  have found : ∀ text : String, BlamesRequest (if resource.searchable.isEmpty then
      .error (.malformed (.notSearchable resource.name))
    else .ok (some (SearchTerm.mk text resource.searchable caseSensitive))) := by
    intro text
    split
    · exact .error rfl
    · exact .ok _
  unfold SearchTerm.ofValue
  dsimp only
  split
  · exact .ok none
  · split
    · exact .ok none
    · exact found _
  · exact found _
  · exact found _
  · exact .error rfl

theorem SearchTerm.ofRequest_blamesRequest :
    BlamesRequest (SearchTerm.ofRequest settings resource parameters) := by
  unfold SearchTerm.ofRequest
  split
  · dsimp only
    split
    · exact .bind Parameter.flag_blamesRequest fun _ _ => ofValue_blamesRequest
    · exact ofValue_blamesRequest
  · exact ofValue_blamesRequest

theorem SortDirective.make_blamesRequest {field : String} {direction : Value} :
    BlamesRequest (SortDirective.make resource field direction) := by
  unfold SortDirective.make
  split
  · exact .error rfl
  · split
    · exact .ok _
    · exact .error rfl

theorem SortDirective.ofEntry_blamesRequest {entry : Value} :
    BlamesRequest (SortDirective.ofEntry resource entry) := by
  unfold SortDirective.ofEntry
  split
  · split
    · exact make_blamesRequest
    · exact .error rfl
  · exact .error rfl

theorem SortDirective.ofValue_blamesRequest
    (legible : ∀ text, raw = .text text → SortDirective.isEncodedList text = true →
      ¬Parameter.Overtaxes text) :
    BlamesRequest (SortDirective.ofValue resource raw) := by
  unfold SortDirective.ofValue
  extract_lets ofDecoded
  have plain : ∀ decoded, BlamesRequest (ofDecoded decoded) := by
    intro decoded
    unfold ofDecoded
    split
    · exact .ok _
    · exact .bind Parameter.words_blamesRequest fun words _ =>
        .mapM fun word _ => make_blamesRequest
    · exact .mapM fun entry _ => ofEntry_blamesRequest
    · exact .error rfl
  split
  · rename_i text
    split
    · rename_i isEncoded
      have decodes : BlamesRequest (Parameter.decoded (.text text) fun detail =>
          .malformed (.notJson "sort" detail)) := by
        refine (Parameter.decoded_blamesRequest fun _ => rfl).mpr fun other same => ?_
        exact legible other same (Value.text.inj same ▸ isEncoded)
      exact decodes.bind fun decoded _ => plain decoded
    · exact plain (.text text)
  · exact plain raw

/-- A parameter that is missing, and so has a value that is no text, misleads nobody. -/
theorem legible_getD {name : String} {fallback : Value} {property : String → Prop}
    (noText : ∀ text, fallback ≠ .text text)
    (legible : ∀ text, parameters.get name = .text text → property text) :
    ∀ text, (parameters.get? name).getD fallback = .text text → property text := by
  intro text isText
  refine legible text (Filter.get_eq_text.mpr ?_)
  cases found : parameters.get? name with
  | none =>
      rw [found] at isText
      exact absurd isText (noText text)
  | some value =>
      rw [found] at isText
      exact congrArg some isText

theorem PaginationRequest.ofRequest_blamesRequest {pagination : PaginationSettings}
    (legible : parameters.IsLegible) :
    BlamesRequest (PaginationRequest.ofRequest pagination parameters) := by
  refine .bind (Parameter.integer_blamesRequest.mpr (legible_getD nofun legible.page)) ?_
  intro page _
  refine .bind (Parameter.integer_blamesRequest.mpr (legible_getD nofun legible.limit)) ?_
  intro limit _
  split
  · exact .ok _
  · split
    · exact .ok _
    · exact .ok _

theorem readColumns_blamesRequest : BlamesRequest (readColumns resource parameters) := by
  refine .bind Parameter.words_blamesRequest fun fields _ => ?_
  split
  · exact .error rfl
  · exact .ok _

theorem readAggregates_blamesRequest : BlamesRequest (readAggregates resource parameters) := by
  refine .bind Parameter.words_blamesRequest fun relations _ => ?_
  split
  · exact .error rfl
  · exact .ok _

theorem TrashedScope.ofRequest_blamesRequest :
    BlamesRequest (TrashedScope.ofRequest resource parameters) := by
  unfold TrashedScope.ofRequest
  split
  · exact .ok _
  · refine .bind Parameter.flag_blamesRequest fun only _ => ?_
    split
    · exact .ok _
    · refine .bind Parameter.flag_blamesRequest fun included _ => ?_
      split
      · exact .ok _
      · exact .ok _

theorem QueryParameters.ofRequest_blamesRequest (legible : parameters.IsLegible) :
    BlamesRequest (QueryParameters.ofRequest settings resource parameters) := by
  refine .bind (Filter.Node.ofRequest_blamesRequest legible.filters) fun _ _ => ?_
  refine .bind SearchTerm.ofRequest_blamesRequest fun _ _ => ?_
  refine .bind (SortDirective.ofValue_blamesRequest legible.sort) fun _ _ => ?_
  refine .bind (PaginationRequest.ofRequest_blamesRequest legible) fun _ _ => ?_
  refine .bind readColumns_blamesRequest fun _ _ => ?_
  refine .bind readAggregates_blamesRequest fun _ _ => ?_
  exact .bind TrashedScope.ofRequest_blamesRequest fun _ _ => .ok _

/-- The limits of listings are those that settings can be read with. -/
structure PaginationSettings.Valid (settings : PaginationSettings) : Prop where
  defaultLimit : 1 ≤ settings.defaultLimit
  maxLimit : ∀ most, settings.maxLimit = some most → 1 ≤ most

/-- The page is one there can be: it is counted from one, and unless everything is asked for it holds
something, but no more than the settings allow. -/
structure PaginationRequest.IsWithin (settings : PaginationSettings)
    (pagination : PaginationRequest) : Prop where
  page : 1 ≤ pagination.page
  limit : pagination.disabled = true ∨
    1 ≤ pagination.limit ∧ ∀ most, settings.maxLimit = some most → pagination.limit ≤ most

theorem PaginationRequest.ofRequest_isWithin {limits : PaginationSettings} (valid : limits.Valid)
    {pagination : PaginationRequest}
    (read : PaginationRequest.ofRequest limits parameters = .ok pagination) :
    pagination.IsWithin limits := by
  obtain ⟨page, isPage, read⟩ := bind_eq_ok.mp read
  obtain ⟨limit, isLimit, read⟩ := bind_eq_ok.mp read
  have pageBound := Parameter.le_of_integer_eq_ok isPage
  have limitBound := Parameter.le_of_integer_eq_ok isLimit
  split at read
  · cases read
    exact ⟨Int.le_refl 1, .inl rfl⟩
  · rename_i enabled
    have positive : 1 ≤ limit := by
      simp only [Bool.or_eq_true, decide_eq_true_eq, not_or] at enabled
      omega
    split at read
    · rename_i most isMost
      have mostBound := valid.maxLimit most isMost
      cases read
      refine ⟨pageBound, .inr ⟨?_, ?_⟩⟩
      · dsimp only
        omega
      · intro other isOther
        rw [isMost] at isOther
        cases isOther
        exact Int.min_le_right limit most
    · rename_i unlimited
      cases read
      exact ⟨pageBound, .inr ⟨positive, by simp [unlimited]⟩⟩

theorem QueryParameters.ofRequest_isWithin (valid : settings.pagination.Valid)
    {found : QueryParameters}
    (read : QueryParameters.ofRequest settings resource parameters = .ok found) :
    found.pagination.IsWithin settings.pagination := by
  obtain ⟨_, _, read⟩ := bind_eq_ok.mp read
  obtain ⟨_, _, read⟩ := bind_eq_ok.mp read
  obtain ⟨_, _, read⟩ := bind_eq_ok.mp read
  obtain ⟨pagination, isPagination, read⟩ := bind_eq_ok.mp read
  obtain ⟨_, _, read⟩ := bind_eq_ok.mp read
  obtain ⟨_, _, read⟩ := bind_eq_ok.mp read
  obtain ⟨_, _, read⟩ := bind_eq_ok.mp read
  cases read
  exact PaginationRequest.ofRequest_isWithin valid isPagination

/-! ## Relations -/

variable {registry : Registry}

theorem Resource.includeTarget_blamesRequest {path : String} :
    BlamesRequest (resource.includeTarget registry settings path) := by
  unfold Resource.includeTarget
  dsimp only
  split
  · exact .error rfl
  · split
    · exact .error rfl
    · split
      · exact .error rfl
      · split
        · exact .ok _
        · exact .error rfl

theorem RelationWindow.ofEntry_blamesRequest {path : String} (legible : parameters.IsLegible) :
    BlamesRequest (RelationWindow.ofEntry path parameters) := by
  unfold RelationWindow.ofEntry
  split
  · exact .ok none
  · refine .bind (Parameter.integer_blamesRequest.mpr legible.limit) fun _ _ => ?_
    refine .bind (Parameter.integer_blamesRequest.mpr (legible_getD nofun legible.page)) ?_
    exact fun _ _ => .ok _

theorem RelationRequest.ofEntry_blamesRequest {entry : Value}
    (legible : ∀ members, entry = .object members → Record.IsLegible members) :
    BlamesRequest (RelationRequest.ofEntry registry settings resource entry) := by
  unfold RelationRequest.ofEntry
  split
  · rename_i members
    have legible := legible members rfl
    split
    · refine .bind Resource.includeTarget_blamesRequest fun target _ => ?_
      refine .bind (RelationWindow.ofEntry_blamesRequest legible) fun _ _ => ?_
      refine .bind (Filter.Node.ofRequest_blamesRequest legible.filters) fun _ _ => ?_
      exact .bind (SortDirective.ofValue_blamesRequest legible.sort) fun _ _ => .ok _
    · exact .error rfl
  · exact .error rfl

theorem RelationRequest.ofRequest_blamesRequest {request : Request}
    (legible : ∀ entries members, request.body.get "includes" = .list entries →
      .object members ∈ entries → Record.IsLegible members) :
    BlamesRequest (RelationRequest.ofRequest registry settings resource request) := by
  refine .bind Parameter.words_blamesRequest fun paths _ => ?_
  refine .bind (.mapM fun path _ => .bind Resource.includeTarget_blamesRequest fun _ _ => .ok _) ?_
  intro plain _
  dsimp only
  split
  · exact .bind (.ok _) fun _ _ => .ok _
  · rename_i entries isList
    refine .bind (.mapM fun entry member => ?_) fun _ _ => .ok _
    refine ofEntry_blamesRequest ?_
    rintro members rfl
    exact legible entries members isList member
  · exact .bind (.error rfl) fun _ _ => .ok _

end Readers

/-! ## Settings -/

namespace Reading

theorem entry_value {entries : List (Scalar × Document)} {name : String} {fallback : α}
    {read : Document → Except (List Report) α} (property : α → Prop) (holds : property fallback)
    (reads : ∀ document value, read document = .ok value → property value) :
    property (entry entries name fallback read).value := by
  unfold entry
  cases Document.find? name entries with
  | none => exact holds
  | some document =>
      dsimp only
      cases isRead : read document with
      | ok value => exact reads document value isRead
      | error reports => exact holds

theorem le_of_integerFrom {minimum number : Int} {document : Document}
    (isRead : integerFrom minimum document = .ok number) : minimum ≤ number := by
  have within : ∀ input, (Report.readIntegerFrom minimum input).mapError (fun report => [report]) =
      .ok number → minimum ≤ number := by
    intro input isRead
    unfold Report.readIntegerFrom at isRead
    split at isRead
    · split at isRead
      · cases isRead
      · rename_i above
        cases isRead
        exact Int.not_lt.mp above
    · cases isRead
  unfold integerFrom scalarWith at isRead
  dsimp only at isRead
  split at isRead
  · exact within _ isRead
  · exact within _ isRead
  · cases isRead

end Reading

theorem PaginationSettings.valid_read (entries : List (Scalar × Document)) :
    (PaginationSettings.read entries).value.Valid where
  defaultLimit :=
    Reading.entry_value (1 ≤ ·) (by decide) fun _ _ => Reading.le_of_integerFrom
  maxLimit := by
    refine Reading.entry_value (fun value => ∀ most, value = some most → 1 ≤ most) nofun ?_
    intro document value read most isMost
    unfold Reading.integerOrNull at read
    split at read
    · cases read
      cases isMost
    · cases found : Reading.integerFrom 1 document with
      | error reports =>
          rw [found] at read
          cases read
      | ok number =>
          rw [found] at read
          cases read
          cases isMost
          exact Reading.le_of_integerFrom found

/-- The limits of all settings that can be read are valid. -/
theorem Settings.valid_of_ofEntries {entries : List (Scalar × Document)} {settings : Settings}
    (read : Settings.ofEntries entries = .ok settings) : settings.pagination.Valid := by
  unfold Settings.ofEntries at read
  split at read
  · cases read
    refine Reading.entry_value PaginationSettings.Valid ⟨by decide, nofun⟩ ?_
    intro document value read
    unfold Reading.entriesOfSection at read
    split at read
    · split at read
      · cases read
        exact PaginationSettings.valid_read _
      · cases read
    · cases read
  · cases read

/-! ## Requests -/

/-- Reading query parameters and relations fails with faults of the request only, as long as no
parameter misleads or overtaxes its reader; and every page that is read is one there can be. -/
theorem parameters_blameRequest {settings : Settings} (valid : settings.pagination.Valid)
    (registry : Registry) (resource : Resource) (parameters : Record) (request : Request) :
    (parameters.IsLegible → BlamesRequest (QueryParameters.ofRequest settings resource parameters)) ∧
      ((∀ entries members, request.body.get "includes" = .list entries →
          .object members ∈ entries → Record.IsLegible members) →
        BlamesRequest (RelationRequest.ofRequest registry settings resource request)) ∧
      (∀ found, QueryParameters.ofRequest settings resource parameters = .ok found →
        found.pagination.IsWithin settings.pagination) ∧
      ∀ pagination, PaginationRequest.ofRequest settings.pagination parameters = .ok pagination →
        pagination.IsWithin settings.pagination :=
  ⟨QueryParameters.ofRequest_blamesRequest, RelationRequest.ofRequest_blamesRequest,
    fun _ => QueryParameters.ofRequest_isWithin valid,
    fun _ => PaginationRequest.ofRequest_isWithin valid⟩

/-- Text that passes for a whole number and is none fails the readers of a listing and of a relation
with a failure that is no fault of the request. -/
theorem misleading_limits_unblamed :
    Parameter.Misleads "--5" ∧ Parameter.Misleads "\u00b2" ∧
      QueryParameters.ofRequest {} Samples.Library.nodes [("limit", .text "--5")] =
        .error (.value (.notNumeral "--5")) ∧
      RelationRequest.ofRequest ⟨[Samples.Library.nodes]⟩ {} Samples.Library.nodes
          { body := [("includes", .list [.object [("relation", .text "children"),
            ("limit", .text "\u00b2")]])] } =
        .error (.value (.notNumeral "\u00b2")) ∧
      ∀ text, (Error.value (.notNumeral text)).isRequestError = false := by
  refine ⟨?_, ?_, rfl, rfl, fun _ => rfl⟩
  · exact ⟨by decide, .inl (by decide)⟩
  · exact ⟨by decide, .inr (.inl ⟨'\u00b2', by decide, by decide⟩)⟩

/-- Parameters of a listing that give every reader a text. -/
def listedNodes : Record :=
  [("page", .text " 2 "), ("limit", .text "-1"), ("filters", .text "[]"), ("sort", .text "[{}]")]

theorem listedNodes_isLegible : listedNodes.IsLegible where
  page text isText := by
    cases isText
    exact (Parameter.readInt_of_looksWhole (by decide)).mp ⟨2, rfl⟩
  limit text isText := by
    cases isText
    exact (Parameter.readInt_of_looksWhole (by decide)).mp ⟨-1, rfl⟩
  filters text isText := by
    cases isText
    rintro (⟨digits, tooLong⟩ | tooDeep)
    · cases tooLong
    · cases tooDeep
  sort text isText := by
    cases isText
    rintro _ (⟨digits, tooLong⟩ | tooDeep)
    · cases tooLong
    · cases tooDeep

/-- A limit below zero is a fault of the request, for a listing and for a relation; without a limit,
the page is read. -/
theorem parameters_blameRequest_nodes :
    PaginationSettings.Valid {} ∧ listedNodes.IsLegible ∧
      (∃ error, QueryParameters.ofRequest {} Samples.Library.nodes listedNodes = .error error ∧
        error.isRequestError = true) ∧
      (∃ error, RelationRequest.ofRequest ⟨[Samples.Library.nodes]⟩ {} Samples.Library.nodes
          { body := [("includes", .list [.object (("relation", .text "children") ::
            listedNodes)])] } = .error error ∧ error.isRequestError = true) ∧
      ∃ pagination, PaginationRequest.ofRequest {} [("page", .text " 2 ")] = .ok pagination ∧
        pagination.IsWithin {} := by
  have valid : PaginationSettings.Valid {} := ⟨by decide, nofun⟩
  have entry : Record.IsLegible (("relation", .text "children") :: listedNodes) :=
    ⟨listedNodes_isLegible.page, listedNodes_isLegible.limit, listedNodes_isLegible.filters,
      listedNodes_isLegible.sort⟩
  obtain ⟨blames, relationsBlame, _, _⟩ := @parameters_blameRequest {} valid
    ⟨[Samples.Library.nodes]⟩ Samples.Library.nodes listedNodes
    { body := [("includes", .list [.object (("relation", .text "children") :: listedNodes)])] }
  obtain ⟨_, _, _, within⟩ := @parameters_blameRequest {} valid
    ⟨[Samples.Library.nodes]⟩ Samples.Library.nodes [("page", .text " 2 ")] {}
  refine ⟨valid, listedNodes_isLegible, ⟨_, rfl, blames listedNodes_isLegible _ rfl⟩,
    ⟨_, rfl, relationsBlame ?_ _ rfl⟩, ⟨_, rfl, within _ rfl⟩⟩
  rintro entries members isList member
  cases isList
  cases List.mem_singleton.mp member
  exact entry

end ResourceServer
