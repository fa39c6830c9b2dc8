import Clear.Ai.Rag.Providers
import Clear.Lib.Slices

/-!
# Which model a snapshot is priced as

The key of a model that is not listed is the first listed name that it begins with. Only `gpt-4.1`
begins other listed names, and it comes first, so a snapshot of one of these has its rates.

* `rates_iff`: the rates are those of the longest listed name exactly when the model is no such
  snapshot.
-/

namespace Clear

namespace Pricing

open Prefixes

/-- The word of an entry of the table. -/
def listedName (known : String × Rates) : List Char := known.1.toList

abbrev LongestListed (model : String) (known : String × Rates) : Prop :=
  Longest listedName pricing model.toList known

def base : String × Rates := ("gpt-4.1", (2, 8))

/-- A model that is not listed, and begins with a listed name that another listed name begins. -/
def Shadowed (model : String) : Prop :=
  (pricing.lookup model).isSome = false ∧
    (Text.startsWith "gpt-4.1-mini" model = true ∨ Text.startsWith "gpt-4.1-nano" model = true)

instance (model : String) : Decidable (Shadowed model) := inferInstanceAs (Decidable (_ ∧ _))

/-! ## The table -/

theorem pricing_nodup : (pricing.map (·.1)).Nodup := by decide

theorem prefix_pricing : ∀ e ∈ pricing, ∀ e' ∈ pricing, listedName e <+: listedName e' →
    e = e' ∨ e = base ∧ (e'.1 = "gpt-4.1-mini" ∨ e'.1 = "gpt-4.1-nano") := by
  decide +kernel

theorem rates_ne_base : ∀ e ∈ pricing, e.1 = "gpt-4.1-mini" ∨ e.1 = "gpt-4.1-nano" →
    listedName base <+: listedName e ∧ e.2 ≠ base.2 := by
  decide +kernel

theorem startsWith_iff {start s : String} :
    Text.startsWith start s = true ↔ start.toList <+: s.toList := List.isPrefixOf_iff_prefix

theorem longest_inj {model : String} {e e' : String × Rates} (h : LongestListed model e)
    (h' : LongestListed model e') : e = e' :=
  List.inj_on_of_nodup_map pricing_nodup h.mem h'.mem (String.toList_inj.1 (h.word_eq h'))

/-! ## The key -/

def nameRates (name : String) : Rates :=
  if (pricing.lookup name).isSome then (pricing.lookup name).getD (0, 0)
  else ((pricing.find? fun known => Text.startsWith known.1 name).map (·.2)).getD (0, 0)

theorem lookup_listed {e : String × Rates} (he : e ∈ pricing) : pricing.lookup e.1 = some e.2 :=
  (Dict.lookup_eq_some_iff pricing_nodup).2 he

theorem rates_eq (model : String) : rates model = nameRates (normalised model) := by
  unfold rates pricingKey nameRates
  dsimp only
  split
  · rfl
  next hlisted =>
    cases hfind : pricing.find? fun known => Text.startsWith known.1 (normalised model) with
    | none =>
      have hnone : pricing.lookup (normalised model) = none :=
        Option.not_isSome_iff_eq_none.1 hlisted
      simp only [hnone]
      rfl
    | some known =>
      simp only [lookup_listed (List.mem_of_find?_eq_some hfind)]
      rfl

theorem longest_self {e : String × Rates} (he : e ∈ pricing) : LongestListed e.1 e :=
  longest_of_forall he (List.prefix_refl _) fun _ _ h => h

theorem nameRates_shadowed {name : String} (h : Shadowed name) : nameRates name = base.2 := by
  obtain ⟨hlisted, hstarts⟩ := h
  have hbase : Text.startsWith base.1 name = true := by
    rw [startsWith_iff]
    rcases hstarts with h | h
    · exact List.IsPrefix.trans (by decide) (startsWith_iff.1 h)
    · exact List.IsPrefix.trans (by decide) (startsWith_iff.1 h)
  have hfind : (pricing.find? fun known => Text.startsWith known.1 name) = some base :=
    List.find?_cons_of_pos hbase
  unfold nameRates
  rw [hlisted, hfind]
  rfl

theorem nameRates_longest {name : String} {e : String × Rates} (h : ¬ Shadowed name)
    (he : LongestListed name e) : nameRates name = e.2 := by
  unfold nameRates
  cases hlisted : (pricing.lookup name).isSome with
  | true =>
    obtain ⟨r, hr⟩ := Option.isSome_iff_exists.1 hlisted
    have hself : LongestListed name (name, r) := longest_self (Dict.mem_of_lookup hr)
    rw [hr, longest_inj he hself]
    rfl
  | false =>
    have hfind : (pricing.find? fun known => Text.startsWith known.1 name) = some e := by
      obtain ⟨first, hfirst⟩ : ∃ first,
          (pricing.find? fun known => Text.startsWith known.1 name) = some first :=
        Option.isSome_iff_exists.1 (List.find?_isSome.2 ⟨e, he.mem, startsWith_iff.2 he.isPrefix⟩)
      have hmem := List.mem_of_find?_eq_some hfirst
      have hstarts : Text.startsWith first.1 name = true := by
        simpa using List.find?_some hfirst
      have hpre : listedName first <+: name.toList := startsWith_iff.1 hstarts
      rcases prefix_pricing first hmem e he.mem (he.prefix_word hmem hpre) with rfl | ⟨-, hlong⟩
      · exact hfirst
      · -- the name would be shadowed
        refine absurd ⟨hlisted, ?_⟩ h
        rcases hlong with hname | hname
        · exact .inl (by rw [← hname]; exact startsWith_iff.2 he.isPrefix)
        · exact .inr (by rw [← hname]; exact startsWith_iff.2 he.isPrefix)
    rw [hfind]
    rfl

theorem nameRates_unlisted {name : String} (h : ∀ e ∈ pricing, ¬ listedName e <+: name.toList) :
    nameRates name = (0, 0) := by
  have hfind : (pricing.find? fun known => Text.startsWith known.1 name) = none :=
    List.find?_eq_none.2 fun e he hstarts => h e he (startsWith_iff.1 hstarts)
  have hlisted : pricing.lookup name = none := by
    cases hlook : pricing.lookup name with
    | none => rfl
    | some r => exact absurd (List.prefix_refl _) (h _ (Dict.mem_of_lookup hlook))
  unfold nameRates
  rw [hlisted, hfind]
  rfl

/-! ## Provider prefixes -/

def IsProvider (provider : String) : Prop :=
  ∃ path vendor, provider = path ++ vendor ∧ (path = "" ∨ ∃ p, path = p ++ "/") ∧
    (vendor = "" ∨ vendor = "anthropic.")

def dropVendor (name : String) : String :=
  if Text.startsWith "anthropic." name then
    String.ofList (name.toList.drop "anthropic.".length)
  else name

def lastPart (s : String) : String := ((Text.splitOn '/' s).getLast?).getD ""

theorem normalised_eq (model : String) : normalised model = dropVendor (lastPart model) := by
  rfl

theorem partsFrom_ne_nil (sep : Char) (part chars : List Char) :
    Text.partsFrom sep part chars ≠ [] := by
  induction chars generalizing part with
  | nil => exact List.cons_ne_nil _ _
  | cons c chars ih =>
    unfold Text.partsFrom
    split
    · exact List.cons_ne_nil _ _
    · exact ih _

theorem getLast_partsFrom {sep : Char} {chars : List Char} (part : List Char)
    (h : sep ∉ chars) :
    (Text.partsFrom sep part chars).getLast? = some (String.ofList (part.reverse ++ chars)) := by
  induction chars generalizing part with
  | nil => simp [Text.partsFrom]
  | cons c chars ih =>
    rw [List.mem_cons, not_or] at h
    unfold Text.partsFrom
    rw [if_neg (Ne.symm h.1), ih _ h.2, List.reverse_cons, List.append_assoc]
    rfl

/-- What comes before a separator does not matter. -/
theorem getLast_partsFrom_append (sep : Char) (part before chars : List Char) :
    (Text.partsFrom sep part (before ++ sep :: chars)).getLast? =
      (Text.partsFrom sep [] chars).getLast? := by
  induction before generalizing part with
  | nil =>
    rw [List.nil_append, Text.partsFrom, if_pos rfl]
    obtain ⟨p, parts, hparts⟩ := List.exists_cons_of_ne_nil (partsFrom_ne_nil sep [] chars)
    rw [hparts, List.getLast?_cons_cons]
  | cons c before ih =>
    rw [List.cons_append, Text.partsFrom]
    split
    · obtain ⟨p, parts, hparts⟩ := List.exists_cons_of_ne_nil
        (partsFrom_ne_nil sep [] (before ++ sep :: chars))
      rw [hparts, List.getLast?_cons_cons, ← hparts]
      exact ih []
    · exact ih _

theorem lastPart_of_not_mem {s : String} (h : '/' ∉ s.toList) : lastPart s = s := by
  unfold lastPart Text.splitOn
  rw [getLast_partsFrom [] h]
  exact String.ofList_toList

theorem lastPart_append {p s : String} : lastPart (p ++ "/" ++ s) = lastPart s := by
  unfold lastPart Text.splitOn
  have hchars : (p ++ "/" ++ s).toList = p.toList ++ '/' :: s.toList := by
    simp [String.toList_append]
  rw [hchars, getLast_partsFrom_append]

theorem lastPart_path {path s : String} (h : path = "" ∨ ∃ p, path = p ++ "/") :
    lastPart (path ++ s) = lastPart s := by
  rcases h with rfl | ⟨p, rfl⟩
  · rw [String.empty_append]
  · exact lastPart_append

theorem dropVendor_self {name : String} (h : ¬ "anthropic.".toList <+: name.toList) :
    dropVendor name = name := by
  unfold dropVendor
  rw [if_neg (mt startsWith_iff.1 h)]

theorem dropVendor_append {vendor name : String} (h : ¬ "anthropic.".toList <+: name.toList)
    (hvendor : vendor = "" ∨ vendor = "anthropic.") : dropVendor (vendor ++ name) = name := by
  rcases hvendor with rfl | rfl
  · rw [String.empty_append]
    exact dropVendor_self h
  · have hstarts : Text.startsWith "anthropic." ("anthropic." ++ name) = true := by
      rw [startsWith_iff, String.toList_append]
      exact List.prefix_append _ _
    unfold dropVendor
    rw [if_pos hstarts, String.toList_append]
    show String.ofList (List.drop "anthropic.".toList.length _) = _
    rw [List.drop_left, String.ofList_toList]

theorem listed_plain : ∀ name ∈ pricing.map (·.1),
    '/' ∉ name.toList ∧ (name.toList.head? = some 'g' ∨ name.toList.head? = some 'c') := by
  decide

theorem not_vendor {name : String} (hname : name ∈ pricing.map (·.1)) (rest : String) :
    ¬ "anthropic.".toList <+: (name ++ rest).toList := by
  rintro ⟨tail, htail⟩
  have hhead : (name ++ rest).toList.head? = some 'a' := by
    rw [← htail]
    rfl
  obtain ⟨-, h⟩ := listed_plain name hname
  rw [String.toList_append, List.head?_append] at hhead
  rcases h with h | h
  · rw [h] at hhead
    cases hhead
  · rw [h] at hhead
    cases hhead

theorem normalised_whole {provider name rest : String} (hprovider : IsProvider provider)
    (hname : name ∈ pricing.map (·.1)) (hrest : '/' ∉ rest.toList) :
    normalised (provider ++ (name ++ rest)) = name ++ rest := by
  obtain ⟨path, vendor, rfl, hpath, hvendor⟩ := hprovider
  have hslash : '/' ∉ (vendor ++ (name ++ rest)).toList := by
    have hv : '/' ∉ vendor.toList := by
      rcases hvendor with rfl | rfl <;> decide
    simp only [String.toList_append, List.mem_append, not_or]
    exact ⟨hv, (listed_plain name hname).1, hrest⟩
  rw [normalised_eq, String.append_assoc, lastPart_path hpath, lastPart_of_not_mem hslash]
  exact dropVendor_append (not_vendor hname rest) hvendor

theorem normalised_tail {s : String} (before : String) (hs : '/' ∈ s.toList) :
    normalised (before ++ s) = normalised s := by
  obtain ⟨u, v, huv⟩ := List.append_of_mem hs
  have hsplit : s = String.ofList u ++ "/" ++ String.ofList v := by
    rw [← String.toList_inj, huv]
    simp [String.toList_append]
  rw [normalised_eq, normalised_eq, hsplit, ← String.append_assoc, ← String.append_assoc,
    lastPart_append, lastPart_append]

/-! ## The rates -/

theorem rates_ne_of_shadowed {model : String} {known : String × Rates} (h : Shadowed model)
    (hknown : LongestListed model known) : known.2 ≠ base.2 := by
  have hall : ∀ e ∈ pricing, e.1 = "gpt-4.1-mini" ∨ e.1 = "gpt-4.1-nano" →
      Text.startsWith e.1 model = true → known.2 ≠ base.2 := by
    intro e he hname hstarts
    rcases prefix_pricing e he known hknown.mem
      (hknown.prefix_word he (startsWith_iff.1 hstarts)) with rfl | ⟨hbase, -⟩
    · exact (rates_ne_base e he hname).2
    · rw [hbase] at hname
      exact absurd hname (by decide)
  rcases h.2 with h | h
  · exact hall _ (.tail _ (.head _)) (.inl rfl) h
  · exact hall _ (.tail _ (.tail _ (.head _))) (.inr rfl) h

theorem rates_ne_zero : ∀ e ∈ pricing, (0, 0) ≠ e.2 := by
  decide +kernel

theorem nameRates_iff (name : String) (r : Rates) (hr : (0, 0) ≠ r) :
    nameRates name = r ↔ Shadowed name ∧ r = base.2 ∨
      ¬ Shadowed name ∧ ∃ e, LongestListed name e ∧ e.2 = r := by
  by_cases hshadowed : Shadowed name
  · rw [nameRates_shadowed hshadowed]
    simp [hshadowed, eq_comm]
  · by_cases hexists : ∃ e, LongestListed name e
    · obtain ⟨e, he⟩ := hexists
      rw [nameRates_longest hshadowed he]
      refine ⟨fun h => .inr ⟨hshadowed, e, he, h⟩, fun h => ?_⟩
      rcases h with ⟨h, -⟩ | ⟨-, e', he', rfl⟩
      · exact absurd h hshadowed
      · rw [longest_inj he he']
    · have hnone : ∀ e ∈ pricing, ¬ listedName e <+: name.toList := fun e he hpre =>
        hexists (exists_longest he hpre)
      rw [nameRates_unlisted hnone]
      refine ⟨fun h => absurd h hr, fun h => ?_⟩
      rcases h with ⟨h, -⟩ | ⟨-, e, he, -⟩
      · exact absurd h hshadowed
      · exact absurd ⟨e, he⟩ hexists

/-- A listed name with a suffix has the rates of the longest listed name it begins with, unless it is
a snapshot of `gpt-4.1-mini` or `gpt-4.1-nano`. Of a suffix with a slash only what follows the last
one is read. -/
theorem rates_iff {provider name suffix : String} {known : String × Rates}
    (hprovider : IsProvider provider) (hname : name ∈ pricing.map (·.1))
    (hknown : LongestListed (name ++ "-" ++ suffix) known) :
    ('/' ∉ suffix.toList →
      (rates (provider ++ (name ++ "-" ++ suffix)) = known.2 ↔
        ¬ Shadowed (name ++ "-" ++ suffix))) ∧
    ('/' ∈ suffix.toList →
      (rates (provider ++ (name ++ "-" ++ suffix)) = known.2 ↔
        Shadowed (normalised suffix) ∧ known.2 = base.2 ∨
          ¬ Shadowed (normalised suffix) ∧
            ∃ e, LongestListed (normalised suffix) e ∧ e.2 = known.2)) := by
  rw [rates_eq]
  constructor
  · intro hslash
    have hrest : '/' ∉ ("-" ++ suffix).toList := by
      simpa [String.toList_append] using hslash
    have hwhole : normalised (provider ++ (name ++ "-" ++ suffix)) = name ++ "-" ++ suffix := by
      have hassoc : name ++ "-" ++ suffix = name ++ ("-" ++ suffix) := String.append_assoc
      rw [hassoc]
      exact normalised_whole hprovider hname hrest
    rw [hwhole]
    constructor
    · intro hrates hshadowed
      rw [nameRates_shadowed hshadowed] at hrates
      exact rates_ne_of_shadowed hshadowed hknown hrates.symm
    · exact fun hshadowed => nameRates_longest hshadowed hknown
  · intro hslash
    rw [← String.append_assoc, normalised_tail _ hslash]
    exact nameRates_iff _ _ (rates_ne_zero known hknown.mem)

theorem rates_snapshot :
    rates ("bedrock/anthropic." ++ ("claude-opus-5" ++ "-" ++ "20260101")) = (5, 25) := by
  have hprovider : IsProvider "bedrock/anthropic." :=
    ⟨"bedrock/", "anthropic.", by decide, .inr ⟨"bedrock", by decide⟩, .inr rfl⟩
  have hknown : LongestListed ("claude-opus-5" ++ "-" ++ "20260101") ("claude-opus-5", (5, 25)) :=
    ⟨by decide +kernel, by decide +kernel, by decide +kernel⟩
  exact ((rates_iff hprovider (by decide) hknown).1 (by decide)).2 (by decide)

/-- A snapshot of `gpt-4.1-mini` is charged at the rates of `gpt-4.1`. -/
theorem rates_mini_snapshot :
    LongestListed "gpt-4.1-mini-2025-04-14" ("gpt-4.1-mini", (2 / 5, 8 / 5)) ∧
      rates "gpt-4.1-mini-2025-04-14" = (2, 8) ∧ ((2, 8) : Rates) ≠ (2 / 5, 8 / 5) :=
  ⟨⟨by decide +kernel, by decide +kernel, by decide +kernel⟩, by decide +kernel, by decide +kernel⟩

end Pricing

end Clear
