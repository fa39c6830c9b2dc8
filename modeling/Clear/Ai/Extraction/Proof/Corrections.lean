import Clear.Ai.Extraction.Proof.AttributeRules

/-!
# Corrections settle

The corrections of a clause's attributes are applied, and the result is validated again. The rules
then find nothing more to correct, except the side of a party whose name was itself corrected, and
no new error, except where a corrected value does not conform to the schema (`corrections_settle`).
-/

namespace Clear

namespace Corrections

open Validation

/-! ## The corrected attributes -/

/-- What is assumed of `str.upper` and `str.isalpha`: upper case is upper case already, it is the
usual one in ASCII, and no letter is white space. -/
structure Letters (std : Stdlib) : Prop where
  upper_upper : ∀ s, std.upper (std.upper s) = std.upper s
  upper_ascii : ∀ s, (∀ c ∈ s.toList, c.toNat < 128) →
    std.upper s = String.ofList (s.toList.map Char.toUpper)
  not_space : ∀ c, std.isAlpha c = true → Text.isSpace c = false

section Letters

variable {std : Stdlib} {key : String}

theorem isStr_eq_true {v : Value} {s : String} : v.isStr s = true ↔ v = .str s := by
  cases v <;> simp [Value.isStr]

theorem currencyCorrection_spec {value w : Value} (h : currencyCorrection std key value = some w) :
    ∃ s, value = .str s ∧ Text.contains "currency" key = true ∧
      isCurrencyCode std (std.upper (Text.strip s)) = true ∧ std.upper (Text.strip s) ≠ s ∧
      w = .str (std.upper (Text.strip s)) := by
  unfold currencyCorrection at h
  cases value with
  | str s =>
    dsimp only at h
    split at h
    next hcode =>
      cases h
      exact ⟨s, rfl, hcode.1, hcode.2.1, hcode.2.2, rfl⟩
    next => cases h
  | _ => cases h

theorem currencyCorrection_code (hstd : Letters std) {s : String}
    (hcode : isCurrencyCode std (std.upper s) = true) :
    currencyCorrection std key (.str (std.upper s)) = none := by
  have hstrip : Text.strip (std.upper s) = std.upper s := by
    refine Text.trim_eq_self fun c hc => hstd.not_space c ?_
    exact List.all_eq_true.1 (Bool.and_eq_true_iff.1 hcode).2 c hc
  unfold currencyCorrection
  simp only [hstrip, hstd.upper_upper]
  simp

theorem currencyCorrection_side (hstd : Letters std) {ctx : ValidationContext} {name : String} :
    currencyCorrection std key (.str (ctx.sideOf name)) = none := by
  have hsides : ∀ side ∈ [PartySide.ourOrganisation, PartySide.counterparty, PartySide.unknown],
      (Text.strip side).toList.all (·.toNat < 128) = true ∧ (Text.strip side).toList.length ≠ 3 := by
    decide
  have hlong : ∀ side ∈ [PartySide.ourOrganisation, PartySide.counterparty, PartySide.unknown],
      currencyCorrection std key (.str side) = none := by
    intro side hside
    obtain ⟨hascii, hlength⟩ := hsides side hside
    unfold currencyCorrection
    refine if_neg fun h => hlength ?_
    have hcode := (Bool.and_eq_true_iff.1 h.2.1).1
    rw [hstd.upper_ascii _ (by simpa using hascii)] at hcode
    simpa using hcode
  refine hlong _ ?_
  unfold ValidationContext.sideOf
  dsimp only
  split
  · simp
  · split
    · simp
    · cases ctx.partySides.lookup (normalisePartyName name) with
      | none => simp
      | some ours => cases ours <;> simp

end Letters

/-- What a first run corrects: the rules of the category last, then the sides, then the currencies.
-/
structure FirstRun (std : Stdlib) (ctx : ValidationContext) (attributes items corrections : ValueDict) :
    Prop where
  letters : Letters std
  keys : (attributes.map (·.1)).Nodup
  nodup : (corrections.map (·.1)).Nodup
  rule : ∀ e ∈ items, RuleItem e
  lookup : ∀ key, corrections.lookup key = ((Dict.ofItems items).lookup key).or
    (((attributes.lookup key).bind (sideCorrection ctx attributes key)).or
      ((attributes.lookup key).bind (currencyCorrection std key)))

/-- The keys of the rules are apart from the other conventions. -/
theorem ruleItem_key {e : String × Value} (h : RuleItem e) :
    Text.contains "currency" e.1 = false ∧ Text.endsWith "_side" e.1 = false ∧
      Text.endsWith "_party" e.1 = false ∧ Text.endsWith "_name" e.1 = false ∧
      durationUnit? e.1 = none ∧ hinted amountHints e.1 = false := by
  have hkeys : ∀ key ∈ ["cap_multiple", "has_carve_outs", "is_mutual"],
      Text.contains "currency" key = false ∧ Text.endsWith "_side" key = false ∧
        Text.endsWith "_party" key = false ∧ Text.endsWith "_name" key = false ∧
        durationUnit? key = none ∧ hinted amountHints key = false := by
    decide
  refine hkeys e.1 ?_
  rcases h with ⟨x, rfl⟩ | rfl | rfl <;> simp

section FirstRun

variable {std : Stdlib} {ctx : ValidationContext} {attributes items corrections : ValueDict}
  {key : String} {value : Value}

theorem FirstRun.lookup_applied (h : FirstRun std ctx attributes items corrections) (key : String) :
    (applyCorrections attributes corrections).lookup key =
      (corrections.lookup key).or (attributes.lookup key) := by
  unfold applyCorrections
  rw [Dict.lookup_update, Dict.ofItems_of_nodup h.nodup]

theorem FirstRun.item_of_lookup (h : FirstRun std ctx attributes items corrections)
    (hkey : (Dict.ofItems items).lookup key = some value) : RuleItem (key, value) :=
  h.rule _ (Dict.mem_ofItems (Dict.mem_of_lookup hkey))

theorem FirstRun.item_none (h : FirstRun std ctx attributes items corrections)
    (hkey : Text.contains "currency" key = true ∨ Text.endsWith "_side" key = true ∨
      Text.endsWith "_party" key = true ∨ Text.endsWith "_name" key = true) :
    (Dict.ofItems items).lookup key = none := by
  cases hitem : (Dict.ofItems items).lookup key with
  | none => rfl
  | some value =>
    obtain ⟨hcurrency, hside, hparty, hname, -, -⟩ := ruleItem_key (h.item_of_lookup hitem)
    simp_all

theorem sideCorrection_none (hkey : Text.endsWith "_side" key = false) :
    sideCorrection ctx attributes key value = none := by
  unfold sideCorrection resolvedSide?
  rw [if_neg (by simp [hkey]), Option.bind_none]

theorem currencyCorrection_none (hkey : Text.contains "currency" key = false) :
    currencyCorrection std key value = none := by
  unfold currencyCorrection
  cases value with
  | str s => exact if_neg (by simp [hkey])
  | _ => rfl

theorem FirstRun.rerun (h : FirstRun std ctx attributes items corrections) :
    Rerun items attributes (applyCorrections attributes corrections) := by
  intro key hcurrency hside
  rw [h.lookup_applied, h.lookup]
  cases attributes.lookup key with
  | none => simp
  | some value =>
    rw [Option.bind_some, Option.bind_some, sideCorrection_none hside,
      currencyCorrection_none hcurrency, Option.or_none, Option.or_none]

theorem FirstRun.corrected (h : FirstRun std ctx attributes items corrections)
    (hkey : corrections.lookup key = some value) :
    RuleItem (key, value) ∨ ∃ s, value = .str s := by
  rw [h.lookup, Option.or_eq_some_iff, Option.or_eq_some_iff] at hkey
  rcases hkey with hitem | ⟨-, hside | ⟨-, hcurrency⟩⟩
  · exact .inl (h.item_of_lookup hitem)
  · obtain ⟨stated, -, hside⟩ := Option.bind_eq_some_iff.1 hside
    obtain ⟨r, -, hside⟩ := Option.bind_eq_some_iff.1 hside
    split at hside
    · cases hside
    · cases hside
      exact .inr ⟨r.2, rfl⟩
  · obtain ⟨stated, -, hcurrency⟩ := Option.bind_eq_some_iff.1 hcurrency
    obtain ⟨s, -, -, -, -, rfl⟩ := currencyCorrection_spec hcurrency
    exact .inr ⟨_, rfl⟩

/-! ## No further corrections -/

theorem FirstRun.lookup_of_key (h : FirstRun std ctx attributes items corrections)
    (hkey : Text.contains "currency" key = true ∨ Text.endsWith "_side" key = true ∨
      Text.endsWith "_party" key = true ∨ Text.endsWith "_name" key = true) {stated : Value}
    (hstated : attributes.lookup key = some stated) :
    corrections.lookup key =
      (sideCorrection ctx attributes key stated).or (currencyCorrection std key stated) := by
  rw [h.lookup, h.item_none hkey, Option.none_or, hstated, Option.bind_some, Option.bind_some]

theorem FirstRun.stated_of_applied (h : FirstRun std ctx attributes items corrections)
    (hkey : Text.contains "currency" key = true ∨ Text.endsWith "_side" key = true ∨
      Text.endsWith "_party" key = true ∨ Text.endsWith "_name" key = true)
    (hvalue : (applyCorrections attributes corrections).lookup key = some value) :
    ∃ stated, attributes.lookup key = some stated := by
  cases hstated : attributes.lookup key with
  | some stated => exact ⟨stated, rfl⟩
  | none =>
    rw [h.lookup_applied, h.lookup, h.item_none hkey, hstated] at hvalue
    cases hvalue

theorem FirstRun.currency_again (h : FirstRun std ctx attributes items corrections)
    (hvalue : (applyCorrections attributes corrections).lookup key = some value) :
    currencyCorrection std key value = none := by
  cases hcurrency : Text.contains "currency" key with
  | false => exact currencyCorrection_none hcurrency
  | true =>
    obtain ⟨stated, hstated⟩ := h.stated_of_applied (.inl hcurrency) hvalue
    rw [h.lookup_applied, h.lookup_of_key (.inl hcurrency) hstated, hstated] at hvalue
    cases hside : sideCorrection ctx attributes key stated with
    | some w =>
      rw [hside, Option.some_or, Option.some_or] at hvalue
      cases hvalue
      obtain ⟨⟨name, side⟩, hresolved, hw⟩ := Option.bind_eq_some_iff.1 hside
      obtain ⟨-, -, hname, -⟩ := resolvedSide_spec hresolved
      have hsettled : currencyCorrection std key (.str side) = none := by
        rw [← hname]
        exact currencyCorrection_side h.letters
      by_cases hagree : stated.isStr side = true
      · rw [if_pos hagree] at hw
        cases hw
      · rw [if_neg hagree] at hw
        rw [← Option.some.inj hw]
        exact hsettled
    | none =>
      rw [hside, Option.none_or] at hvalue
      cases hcode : currencyCorrection std key stated with
      | some w =>
        rw [hcode, Option.some_or] at hvalue
        cases hvalue
        obtain ⟨s, -, -, hiscode, -, rfl⟩ := currencyCorrection_spec hcode
        exact currencyCorrection_code h.letters hiscode
      | none =>
        rw [hcode, Option.none_or] at hvalue
        cases hvalue
        exact hcode

/-- The attribute that names the party of a side, and the name. It was corrected as a currency code,
and the corrected name is on another side. -/
structure NameRecoded (std : Stdlib) (ctx : ValidationContext) (attributes corrections : ValueDict)
    (key : String) (value : Value) (name old : String) : Prop where
  side : Text.endsWith "_side" key = true
  named : name = sideStem key ++ "_party" ∨ name = sideStem key ++ "_name"
  currency : Text.contains "currency" name = true
  stated : Value.get attributes name = .str old
  recoded : corrections.lookup name = some (.str (std.upper (Text.strip old)))
  moved : ctx.sideOf old ≠ ctx.sideOf (std.upper (Text.strip old))
  value : value = .str (ctx.sideOf (std.upper (Text.strip old)))

theorem not_blank_of_code (hstd : Letters std) {old : String}
    (hcode : isCurrencyCode std (std.upper (Text.strip old)) = true) :
    Text.isBlank old = false := by
  cases hblank : Text.isBlank old with
  | false => rfl
  | true =>
    -- a blank text strips to the empty one, and that has no three letters
    have hstrip : Text.strip old = "" := by
      have hstart : old.toList.dropWhile Text.isSpace = [] :=
        List.dropWhile_eq_nil_iff.2 (by simpa [Text.isBlank] using hblank)
      unfold Text.strip Text.trim
      rw [hstart]
      rfl
    rw [hstrip, hstd.upper_ascii "" (by simp)] at hcode
    cases (Bool.and_eq_true_iff.1 hcode).1

theorem FirstRun.name_applied (h : FirstRun std ctx attributes items corrections)
    (hkey : Text.endsWith "_side" key = false)
    (hname : Text.endsWith "_party" key = true ∨ Text.endsWith "_name" key = true) :
    Value.get (applyCorrections attributes corrections) key = Value.get attributes key ∨
    ∃ old, Text.contains "currency" key = true ∧ Value.get attributes key = .str old ∧
      isCurrencyCode std (std.upper (Text.strip old)) = true ∧
      corrections.lookup key = some (.str (std.upper (Text.strip old))) ∧
      Value.get (applyCorrections attributes corrections) key = .str (std.upper (Text.strip old)) := by
  unfold Value.get
  rw [h.lookup_applied]
  cases hstated : attributes.lookup key with
  | none =>
    left
    rw [h.lookup, h.item_none (.inr (.inr hname)), hstated]
    rfl
  | some stated =>
    rw [h.lookup_of_key (.inr (.inr hname)) hstated, sideCorrection_none hkey, Option.none_or]
    cases hcode : currencyCorrection std key stated with
    | none => exact .inl rfl
    | some w =>
      obtain ⟨s, rfl, hcurrency, hiscode, -, rfl⟩ := currencyCorrection_spec hcode
      exact .inr ⟨s, hcurrency, rfl, hiscode, rfl, rfl⟩

theorem endsWith_append {stop tail : String} (stem : String) (h : stop.length ≤ tail.length) :
    Text.endsWith stop (stem ++ tail) = Text.endsWith stop tail := by
  unfold Text.endsWith
  rw [Bool.eq_iff_iff, List.isSuffixOf_iff_suffix, List.isSuffixOf_iff_suffix, String.toList_append]
  constructor
  · intro hsuffix
    refine List.suffix_of_suffix_length_le hsuffix (List.suffix_append _ _) ?_
    rwa [String.length_toList, String.length_toList]
  · exact fun hsuffix => hsuffix.trans (List.suffix_append _ _)

theorem name_eq {s new : String} (h : name? (.str s) = some new) : new = s := by
  unfold name? at h
  dsimp only at h
  split at h
  · cases h
  · cases h
    rfl

theorem name_of_code (hstd : Letters std) {old : String}
    (hcode : isCurrencyCode std (std.upper (Text.strip old)) = true) :
    name? (.str old) = some old := by
  unfold name?
  dsimp only
  rw [if_neg (by simp [not_blank_of_code hstd hcode])]

theorem truthy_of_code (hstd : Letters std) {old : String}
    (hcode : isCurrencyCode std (std.upper (Text.strip old)) = true) :
    (Value.str old).truthy = true ∧ (Value.str (std.upper (Text.strip old))).truthy = true := by
  have hblank := not_blank_of_code hstd hcode
  constructor
  · refine decide_eq_true fun hempty => ?_
    rw [hempty] at hblank
    cases hblank
  · refine decide_eq_true fun hempty => ?_
    rw [hempty] at hcode
    cases (Bool.and_eq_true_iff.1 hcode).1

theorem FirstRun.partyName_applied (h : FirstRun std ctx attributes items corrections)
    {stem new : String} (hnew : partyName? (applyCorrections attributes corrections) stem = some new) :
    partyName? attributes stem = some new ∨
    ∃ name old, (name = stem ++ "_party" ∨ name = stem ++ "_name") ∧
      Text.contains "currency" name = true ∧ Value.get attributes name = .str old ∧
      corrections.lookup name = some (.str new) ∧ new = std.upper (Text.strip old) ∧
      partyName? attributes stem = some old := by
  have hpartyKey : Text.endsWith "_side" (stem ++ "_party") = false ∧
      Text.endsWith "_party" (stem ++ "_party") = true :=
    ⟨endsWith_append stem (by decide), endsWith_append stem (by decide)⟩
  have hnameKey : Text.endsWith "_side" (stem ++ "_name") = false ∧
      Text.endsWith "_name" (stem ++ "_name") = true :=
    ⟨endsWith_append stem (by decide), endsWith_append stem (by decide)⟩
  have hparty := h.name_applied hpartyKey.1 (.inl hpartyKey.2)
  have hname := h.name_applied hnameKey.1 (.inr hnameKey.2)
  unfold partyName? at hnew ⊢
  rcases hparty with hparty | ⟨old, hcurrency, hold, hcode, hlookup, hcoded⟩
  · rw [hparty] at hnew
    unfold Value.or at hnew ⊢
    by_cases htruthy : (Value.get attributes (stem ++ "_party")).truthy = true
    · rw [if_pos htruthy] at hnew ⊢
      exact .inl hnew
    · rw [if_neg htruthy] at hnew ⊢
      rcases hname with hname | ⟨old, hcurrency, hold, hcode, hlookup, hcoded⟩
      · rw [hname] at hnew
        exact .inl hnew
      · rw [hcoded] at hnew
        obtain rfl := name_eq hnew
        refine .inr ⟨_, old, .inr rfl, hcurrency, hold, hlookup, rfl, ?_⟩
        rw [hold]
        exact name_of_code h.letters hcode
  · obtain ⟨hwas, his⟩ := truthy_of_code h.letters hcode
    rw [hcoded] at hnew
    unfold Value.or at hnew ⊢
    rw [if_pos his] at hnew
    obtain rfl := name_eq hnew
    refine .inr ⟨_, old, .inl rfl, hcurrency, hold, hlookup, rfl, ?_⟩
    rw [hold, if_pos hwas]
    exact name_of_code h.letters hcode

theorem FirstRun.side_settled (h : FirstRun std ctx attributes items corrections)
    (hvalue : (applyCorrections attributes corrections).lookup key = some value) {name : String}
    (hresolved : resolvedSide? ctx attributes key = some (name, ctx.sideOf name)) :
    value = .str (ctx.sideOf name) := by
  obtain ⟨hkey, -, -, -⟩ := resolvedSide_spec hresolved
  obtain ⟨stated, hstated⟩ := h.stated_of_applied (.inr (.inl hkey)) hvalue
  rw [h.lookup_applied, h.lookup_of_key (.inr (.inl hkey)) hstated, hstated] at hvalue
  unfold sideCorrection at hvalue
  rw [hresolved, Option.bind_some] at hvalue
  have hsettled : currencyCorrection std key (.str (ctx.sideOf name)) = none :=
    currencyCorrection_side h.letters
  generalize ctx.sideOf name = side at *
  by_cases hagree : stated.isStr side = true
  · obtain rfl := isStr_eq_true.1 hagree
    rw [if_pos hagree, Option.none_or, hsettled, Option.none_or] at hvalue
    cases hvalue
    rfl
  · rw [if_neg hagree, Option.some_or, Option.some_or] at hvalue
    cases hvalue
    rfl

theorem FirstRun.side_again (h : FirstRun std ctx attributes items corrections)
    (hvalue : (applyCorrections attributes corrections).lookup key = some value) {w : Value}
    (hw : sideCorrection ctx (applyCorrections attributes corrections) key value = some w) :
    ∃ name old, NameRecoded std ctx attributes corrections key w name old := by
  obtain ⟨⟨new, side⟩, hresolved, hw⟩ := Option.bind_eq_some_iff.1 hw
  obtain ⟨hkey, hnew, hside, hknown⟩ := resolvedSide_spec hresolved
  have hmoved : ∀ old, partyName? attributes (sideStem key) = some old →
      ctx.sideOf old ≠ ctx.sideOf new := by
    intro old hold heq
    rw [hside] at heq
    have hsettled := h.side_settled hvalue (resolvedSide_eq hkey hold (by rw [heq]; exact hknown))
    rw [heq] at hsettled
    rw [if_pos (isStr_eq_true.2 hsettled)] at hw
    cases hw
  have hvalue' : w = .str (ctx.sideOf new) := by
    rw [hside]
    split at hw
    · cases hw
    · cases hw
      rfl
  rcases h.partyName_applied hnew with hsame | ⟨name, old, hnamed, hcurrency, hold, hcode, hrecoded,
    hparty⟩
  · exact absurd rfl (hmoved new hsame)
  · have hmoved := hmoved old hparty
    rw [hrecoded] at hcode hmoved hvalue'
    exact ⟨name, old, hkey, hnamed, hcurrency, hold, hcode, hmoved, hvalue'⟩

/-! ## No further errors -/

theorem FirstRun.mem_applied (h : FirstRun std ctx attributes items corrections)
    {e : String × Value} (he : e ∈ applyCorrections attributes corrections) :
    corrections.lookup e.1 = some e.2 ∨ corrections.lookup e.1 = none ∧ e ∈ attributes := by
  have hlookup : (applyCorrections attributes corrections).lookup e.1 = some e.2 :=
    (Dict.lookup_eq_some_iff (Dict.nodup_update h.keys)).2 he
  rw [h.lookup_applied, Option.or_eq_some_iff] at hlookup
  exact hlookup.imp_right fun hold => ⟨hold.1, Dict.mem_of_lookup hold.2⟩

theorem attributeErrors_of_correction
    (h : RuleItem (key, value) ∨ ∃ s, value = .str s) : attributeErrors std (key, value) = [] := by
  unfold attributeErrors durationErrors moneyErrors
  rcases h with hitem | ⟨s, rfl⟩
  · obtain ⟨-, -, -, -, hunit, hhint⟩ := ruleItem_key hitem
    dsimp only at hunit hhint ⊢
    rw [hunit, hhint]
    cases value.real? <;> rfl
  · cases durationUnit? key <;> rfl

theorem readable_of_correction (h : RuleItem (key, value) ∨ ∃ s, value = .str s) :
    Readable std ctx key value := by
  right
  rcases h with hitem | ⟨s, rfl⟩
  · obtain ⟨-, -, -, -, hunit, hhint⟩ := ruleItem_key hitem
    dsimp only at hunit hhint
    rw [hunit, hhint]
    exact ⟨by simp, by simp⟩
  · exact ⟨by simp [Value.num?], by simp [Value.real?]⟩

/-- The generic rules find no new error. -/
theorem FirstRun.attributeErrors_again (h : FirstRun std ctx attributes items corrections) :
    (applyCorrections attributes corrections).flatMap (attributeErrors std) ⊆
      attributes.flatMap (attributeErrors std) := by
  intro issue hissue
  obtain ⟨e, he, hissue⟩ := List.mem_flatMap.1 hissue
  rcases h.mem_applied he with hcorrected | ⟨-, hold⟩
  · rw [show e = (e.1, e.2) from rfl, attributeErrors_of_correction (h.corrected hcorrected)] at hissue
    cases hissue
  · exact List.mem_flatMap.2 ⟨e, hold, hissue⟩

theorem FirstRun.readable_again (h : FirstRun std ctx attributes items corrections)
    (hreadable : ∀ e ∈ attributes, Readable std ctx e.1 e.2) :
    ∀ e ∈ applyCorrections attributes corrections, Readable std ctx e.1 e.2 := by
  intro e he
  rcases h.mem_applied he with hcorrected | ⟨-, hold⟩
  · exact readable_of_correction (h.corrected hcorrected)
  · exact hreadable e hold

/-- An issue of the corrected attributes with the schema: the permitted values of the whole, or what
the schema of a corrected attribute finds in its value. -/
def CorrectionIssue (std : Stdlib) (schema : Schema) (attributes corrections : ValueDict)
    (issue : ValidationIssue) : Prop :=
  issue ∈ enumIssues std schema.enum (.dict (applyCorrections attributes corrections)) "attributes" ∨
    ∃ key value sub, corrections.lookup key = some value ∧ (key, sub) ∈ schema.properties ∧
      issue ∈ validateAgainstSchema std sub value ("attributes" ++ "." ++ key)

theorem mem_validateProperties {properties : List (String × Schema)} {d : ValueDict} {path : String}
    {issue : ValidationIssue} :
    issue ∈ validateProperties std properties d path ↔
      ∃ name sub v, (name, sub) ∈ properties ∧ d.lookup name = some v ∧
        issue ∈ validateAgainstSchema std sub v (path ++ "." ++ name) := by
  induction properties with
  | nil => simp [validateProperties]
  | cons p properties ih =>
    obtain ⟨name, sub⟩ := p
    unfold validateProperties
    rw [List.mem_append, ih]
    constructor
    · intro h
      rcases h with h | ⟨name', sub', v, hmem, hlookup, hissue⟩
      · cases hlookup : d.lookup name with
        | none =>
          rw [hlookup] at h
          cases h
        | some v =>
          rw [hlookup] at h
          exact ⟨name, sub, v, List.mem_cons_self, hlookup, h⟩
      · exact ⟨name', sub', v, List.mem_cons_of_mem _ hmem, hlookup, hissue⟩
    · intro h
      obtain ⟨name', sub', v, hmem, hlookup, hissue⟩ := h
      rcases List.mem_cons.1 hmem with heq | hmem
      · cases heq
        left
        rw [hlookup]
        exact hissue
      · exact .inr ⟨name', sub', v, hmem, hlookup, hissue⟩

theorem mem_validateAgainstSchema_dict {schema : Schema} {d : ValueDict} {path : String}
    {issue : ValidationIssue} :
    issue ∈ validateAgainstSchema std schema (.dict d) path ↔
      issue ∈ typeIssues schema.types (.dict []) path ∨
      typeIssues schema.types (.dict []) path = [] ∧
        (issue ∈ enumIssues std schema.enum (.dict d) path ∨
          schema.types.contains "object" = true ∧
            (issue ∈ missingIssues schema.required d path ∨
              issue ∈ unexpectedIssues schema.closed (schema.properties.map (·.1)) d path ∨
              issue ∈ validateProperties std schema.properties d path)) := by
  obtain ⟨types, enum, properties, required, closed, items⟩ := schema
  have htype : typeIssues types (.dict d) path = typeIssues types (.dict []) path := rfl
  unfold validateAgainstSchema
  dsimp only
  rw [htype]
  cases hmismatch : typeIssues types (.dict []) path with
  | cons mismatch rest => simp
  | nil =>
    simp only [List.isEmpty_nil, Bool.not_true, Bool.false_eq_true, if_false, Value.isNull]
    split
    next hobject =>
      simp only [hobject, List.mem_append, or_assoc, true_and, List.not_mem_nil, false_or]
    next hobject =>
      simp only [hobject, List.append_nil, List.not_mem_nil, false_or, true_and, false_and, or_false,
        Bool.false_eq_true]

theorem FirstRun.schema_again (h : FirstRun std ctx attributes items corrections) {schema : Schema}
    {issue : ValidationIssue} (herror : issue.isError = true)
    (hissue : issue ∈ validateAgainstSchema std schema
      (.dict (applyCorrections attributes corrections)) "attributes") :
    issue ∈ validateAgainstSchema std schema (.dict attributes) "attributes" ∨
      CorrectionIssue std schema attributes corrections issue := by
  rw [mem_validateAgainstSchema_dict] at hissue ⊢
  rcases hissue with htype | ⟨htype, henum | ⟨hobject, hmissing | hunexpected | hproperty⟩⟩
  · exact .inl (.inl htype)
  · exact .inr (.inl henum)
  · -- no correction removes a field
    refine .inl (.inr ⟨htype, .inr ⟨hobject, .inl ?_⟩⟩)
    unfold missingIssues at hmissing ⊢
    obtain ⟨name, hname, rfl⟩ := List.mem_map.1 hmissing
    refine List.mem_map.2 ⟨name, List.mem_filter.2 ⟨(List.mem_filter.1 hname).1, ?_⟩, rfl⟩
    have habsent := (List.mem_filter.1 hname).2
    rw [h.lookup_applied, Option.isNone_iff_eq_none, Option.or_eq_none_iff] at habsent
    rw [habsent.2]
    rfl
  · -- an unexpected field is a warning
    unfold unexpectedIssues at hunexpected
    split at hunexpected
    · obtain ⟨e, -, rfl⟩ := List.mem_map.1 hunexpected
      cases herror
    · cases hunexpected
  · obtain ⟨name, sub, v, hmem, hlookup, hissue⟩ := mem_validateProperties.1 hproperty
    rw [h.lookup_applied, Option.or_eq_some_iff] at hlookup
    rcases hlookup with hcorrected | ⟨-, hold⟩
    · exact .inr (.inr ⟨name, v, sub, hcorrected, hmem, hissue⟩)
    · refine .inl (.inr ⟨htype, .inr ⟨hobject, .inr (.inr ?_)⟩⟩)
      exact mem_validateProperties.2 ⟨name, sub, v, hmem, hold, hissue⟩

end FirstRun

/-! ## The second run -/

section Run

variable {std : Stdlib} {general : Rat → String} {clauseKey : String} {attributes : ValueDict}
  {schema : Schema} {ctx : ValidationContext} {outcome : FieldOutcome}

/-- What a validation adds: the issues with the schema, the errors of the attributes and of the
rules, and the corrections of the currencies, of the sides and of the rules. -/
theorem validate_spec {errors : List ValidationIssue} {items : ValueDict}
    (hrules : ∀ o, Adds o ((clauseRules std general clauseKey).foldl (runRule attributes) o) errors
      items)
    (h : validateClauseAttributes std general clauseKey attributes schema ctx = .ok outcome) :
    outcome.errors = (validateAgainstSchema std schema (.dict attributes) "attributes").filter
        (·.isError) ++ (attributes.flatMap (attributeErrors std) ++ errors) ∧
      outcome.corrections = Dict.ofItems
        ((attributes.filterMap fun e => (currencyCorrection std e.1 e.2).map (e.1, ·)) ++
          ((attributes.filterMap fun e => (sideCorrection ctx attributes e.1 e.2).map (e.1, ·)) ++
            items)) := by
  unfold validateClauseAttributes at h
  obtain ⟨o, hgeneric, h⟩ := Except.bind_eq_ok.1 h
  cases h
  have hadds := (checkGenericAttributes_adds hgeneric).trans
    ((checkPartySides_adds std attributes ctx o).trans (hrules _))
  exact ⟨by rw [hadds.errors]; rfl, hadds.corrections⟩

theorem validate_ok_iff :
    (∃ o, validateClauseAttributes std general clauseKey attributes schema ctx = .ok o) ↔
      ∀ e ∈ attributes, Readable std ctx e.1 e.2 := by
  unfold validateClauseAttributes
  exact (Except.exists_bind_ok fun o => ⟨_, rfl⟩).trans checkGenericAttributes_ok_iff

theorem firstRun {items : ValueDict} (hstd : Letters std) (hkeys : (attributes.map (·.1)).Nodup)
    (hitems : ∀ e ∈ items, RuleItem e)
    (h : outcome.corrections = Dict.ofItems
      ((attributes.filterMap fun e => (currencyCorrection std e.1 e.2).map (e.1, ·)) ++
        ((attributes.filterMap fun e => (sideCorrection ctx attributes e.1 e.2).map (e.1, ·)) ++
          items))) : FirstRun std ctx attributes items outcome.corrections where
  letters := hstd
  keys := hkeys
  nodup := by
    rw [h]
    exact Dict.nodup_update List.nodup_nil
  rule := hitems
  lookup := by
    intro key
    rw [h, Dict.lookup_ofItems_append, Dict.lookup_ofItems_append,
      Dict.ofItems_of_nodup (Dict.nodup_filterMap_entries _ hkeys),
      Dict.ofItems_of_nodup (Dict.nodup_filterMap_entries _ hkeys),
      Dict.lookup_filterMap_entries _ hkeys, Dict.lookup_filterMap_entries _ hkeys,
      Option.or_assoc]

/-- **Corrections settle.** With the corrections of a validation applied, a second one does not
raise. It corrects nothing but the side of a party whose name the first one corrected, and it finds
no error that the first did not find but those of a corrected value with the schema. -/
theorem corrections_settle (hstd : Letters std) (hkeys : (attributes.map (·.1)).Nodup)
    (hfirst : validateClauseAttributes std general clauseKey attributes schema ctx = .ok outcome) :
    ∃ again, validateClauseAttributes std general clauseKey
        (applyCorrections attributes outcome.corrections) schema ctx = .ok again ∧
      (∀ e ∈ again.corrections, ∃ name old,
        NameRecoded std ctx attributes outcome.corrections e.1 e.2 name old) ∧
      ∀ issue ∈ again.errors, issue ∈ outcome.errors ∨
        CorrectionIssue std schema attributes outcome.corrections issue := by
  obtain ⟨errors, items, hrules, hitems, hagain⟩ :=
    runRules_again std general clauseKey attributes
  obtain ⟨herrors, hcorrections⟩ := validate_spec hrules hfirst
  have hrun := firstRun hstd hkeys hitems hcorrections
  obtain ⟨errors', hrules', hsub⟩ := hagain _ hrun.rerun
  obtain ⟨again, hsecond⟩ := validate_ok_iff.2
    (hrun.readable_again (validate_ok_iff.1 ⟨outcome, hfirst⟩))
  obtain ⟨herrors', hcorrections'⟩ := validate_spec hrules' hsecond
  refine ⟨again, hsecond, fun e he => ?_, fun issue hissue => ?_⟩
  · rw [hcorrections'] at he
    have hlookup : ∀ x ∈ applyCorrections attributes outcome.corrections,
        (applyCorrections attributes outcome.corrections).lookup x.1 = some x.2 :=
      fun x hx => (Dict.lookup_eq_some_iff (Dict.nodup_update hkeys)).2 hx
    rcases List.mem_append.1 (Dict.mem_ofItems he) with hcurrency | hside
    · obtain ⟨x, hx, hcurrency⟩ := List.mem_filterMap.1 hcurrency
      rw [hrun.currency_again (hlookup x hx)] at hcurrency
      cases hcurrency
    · rw [List.append_nil] at hside
      obtain ⟨x, hx, hside⟩ := List.mem_filterMap.1 hside
      obtain ⟨w, hw, rfl⟩ := Option.map_eq_some_iff.1 hside
      exact hrun.side_again (hlookup x hx) hw
  · rw [herrors', List.mem_append, List.mem_append] at hissue
    rw [herrors, List.mem_append, List.mem_append]
    rcases hissue with hschema | hattribute | hrule
    · obtain ⟨hmem, herror⟩ := List.mem_filter.1 hschema
      rcases hrun.schema_again herror hmem with hold | hnew
      · exact .inl (.inl (List.mem_filter.2 ⟨hold, herror⟩))
      · exact .inr hnew
    · exact .inl (.inr (.inl (hrun.attributeErrors_again hattribute)))
    · exact .inl (.inr (.inr (hsub hrule)))

end Run

/-! ## Two clauses -/

namespace Sample

def upperChar (c : Char) : Char :=
  if c = 'ı' then 'I' else if c = 'ſ' then 'S' else c.toUpper

def std : Stdlib where
  lower := Text.lower
  upper s := String.ofList (s.toList.map upperChar)
  isAlpha c := c.isAlpha || c = 'ı' || c = 'ſ'
  repr
    | .null => "None"
    | .str s => "'" ++ s ++ "'"
    | _ => ""
  isoformat _ := ""
  parseFloat _ := none
  matchingBlocks _ _ := []

theorem toUpper_cases (c : Char) : c.toUpper = c ∨ c.toUpper.toNat ≤ 90 := by
  unfold Char.toUpper
  split
  next h =>
    right
    have hlow : 97 ≤ c.val.toNat := h.1
    have hhigh : c.val.toNat ≤ 122 := h.2
    have hshift : ('A'.val - 'a'.val).toNat = 4294967264 := by decide
    show (c.val + ('A'.val - 'a'.val)).toNat ≤ 90
    rw [UInt32.toNat_add, hshift]
    omega
  next => exact .inl rfl

theorem toUpper_of_le {c : Char} (h : c.toNat ≤ 90) : c.toUpper = c := by
  unfold Char.toUpper
  refine dif_neg fun hlower => ?_
  have hlow : 97 ≤ c.toNat := hlower.1
  omega

theorem upperChar_of_ne {c : Char} (hi : c ≠ 'ı') (hs : c ≠ 'ſ') : upperChar c = c.toUpper := by
  unfold upperChar
  rw [if_neg hi, if_neg hs]

theorem upperChar_upperChar (c : Char) : upperChar (upperChar c) = upperChar c := by
  by_cases hi : c = 'ı'
  · rw [hi]
    decide
  · by_cases hs : c = 'ſ'
    · rw [hs]
      decide
    · rw [upperChar_of_ne hi hs]
      rcases toUpper_cases c with heq | hle
      · rw [heq, upperChar_of_ne hi hs, heq]
      · rw [upperChar_of_ne, toUpper_of_le hle]
        · intro heq
          rw [heq] at hle
          exact absurd hle (by decide)
        · intro heq
          rw [heq] at hle
          exact absurd hle (by decide)

theorem letters : Letters std where
  upper_upper s := by
    show String.ofList ((String.ofList (s.toList.map upperChar)).toList.map upperChar) = _
    rw [String.toList_ofList, List.map_map]
    exact congrArg String.ofList (List.map_congr_left fun c _ => upperChar_upperChar c)
  upper_ascii s h := by
    refine congrArg String.ofList (List.map_congr_left fun c hc => ?_)
    have hlow := h c hc
    unfold upperChar
    rw [if_neg, if_neg]
    · intro heq
      subst heq
      exact absurd hlow (by decide)
    · intro heq
      subst heq
      exact absurd hlow (by decide)
  not_space c h := by
    have hletter : (c.isAlpha || c = 'ı' || c = 'ſ') = true := h
    simp only [Bool.or_eq_true, decide_eq_true_eq] at hletter
    rcases hletter with (halpha | rfl) | rfl
    · have hrange : 65 ≤ c.toNat ∧ c.toNat ≤ 90 ∨ 97 ≤ c.toNat ∧ c.toNat ≤ 122 := by
        rcases Bool.or_eq_true_iff.1 halpha with hupper | hlower
        · exact .inl (of_decide_eq_true hupper)
        · obtain ⟨hlow, hhigh⟩ := Bool.and_eq_true_iff.1 hlower
          exact .inr ⟨of_decide_eq_true hlow, of_decide_eq_true hhigh⟩
      unfold Text.isSpace
      simp
      omega
    · decide
    · decide

def cap : ValueDict :=
  [("cap_basis", .str "1x_fees_paid"), ("cap_multiple", .null), ("cap_currency", .str "usd")]

def wholeMultiple : Schema where
  types := ["object"]
  properties := [("cap_basis", { types := ["string", "null"] }),
    ("cap_multiple", { types := ["integer", "null"] }),
    ("cap_currency", { types := ["string", "null"] })]
  required := ["cap_basis", "cap_multiple", "cap_currency"]
  closed := true

/-- A party under a key for currencies, by a name whose upper case is another name. -/
def party : ValueDict := [("currency_party", .str "ıſı"), ("currency_side", .null)]

def context : ValidationContext := { organisationAliases := ["ISI"] }

def runs (clauseKey : String) (attributes : ValueDict) (schema : Schema) :
    Except String (FieldOutcome × FieldOutcome) := do
  let general (_ : Rat) : String := ""
  let first ← validateClauseAttributes std general clauseKey attributes schema context
  let again ← validateClauseAttributes std general clauseKey
    (applyCorrections attributes first.corrections) schema context
  return (first, again)

end Sample

/-- The multiple that is filled in does not conform to the schema, and the corrected name resolves
to a side. -/
theorem corrections_unsettled :
    (Sample.runs "limitation_of_liability" Sample.cap Sample.wholeMultiple).map
        (fun r => (r.1.errors, r.2.errors.map (·.code))) = .ok ([], ["schema_type_mismatch"]) ∧
      (Sample.runs "payment_terms" Sample.party {}).map
        (fun r => (r.1.corrections.map (·.1), r.2.corrections.map (·.1))) =
          .ok (["currency_party"], ["currency_side"]) := by
  decide +kernel

theorem corrections_settle_cap :
    ∃ outcome, validateClauseAttributes Sample.std (fun _ => "") "limitation_of_liability" Sample.cap
        {} {} = .ok outcome ∧
      outcome.corrections.map (·.1) = ["cap_currency", "cap_multiple"] ∧
      ∃ again, validateClauseAttributes Sample.std (fun _ => "") "limitation_of_liability"
          (applyCorrections Sample.cap outcome.corrections) {} {} = .ok again ∧
        (∀ e ∈ again.corrections, ∃ name old,
          NameRecoded Sample.std {} Sample.cap outcome.corrections e.1 e.2 name old) ∧
        ∀ issue ∈ again.errors, issue ∈ outcome.errors ∨
          CorrectionIssue Sample.std {} Sample.cap outcome.corrections issue := by
  have hkeys : (validateClauseAttributes Sample.std (fun _ => "") "limitation_of_liability"
      Sample.cap {} {}).map (fun o => o.corrections.map (·.1)) =
        .ok ["cap_currency", "cap_multiple"] := by
    decide +kernel
  obtain ⟨outcome, hfirst, hcorrected⟩ := Except.map_eq_ok.1 hkeys
  exact ⟨outcome, hfirst, hcorrected, corrections_settle Sample.letters (by decide) hfirst⟩

end Corrections

end Clear
