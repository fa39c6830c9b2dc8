import Clear.Core.Proof.Text
import Clear.Storage.Base

/-!
# Storage keys

The key of an artifact determines its project, contract, kind and generation
(`StorageKey.artifact_inj`): no two generations share an object. The key of a contract's file
determines the contract and the version (`StorageKey.contractFile_inj`), and only the files of a
contract are below its prefix (`StorageKey.contractPrefix_inj`).
-/

namespace Clear

theorem ArtifactKind.slash_notMem (kind : ArtifactKind) : '/' ∉ kind.value.toList := by
  cases kind <;> decide

namespace StorageKey

theorem forall_of_all {P : Char → Prop} [DecidablePred P] {chars : List Char}
    (h : (chars.all fun c => decide (P c)) = true) : ∀ c ∈ chars, P c :=
  fun c hc => of_decide_eq_true (List.all_eq_true.1 h c hc)

theorem append_inj {a b c d : String} (hlen : a.toList.length = b.toList.length)
    (h : a ++ c = b ++ d) : a = b ∧ c = d := by
  have h' := congrArg String.toList h
  rw [String.toList_append, String.toList_append] at h'
  obtain ⟨h1, h2⟩ := List.append_inj h' hlen
  exact ⟨String.toList_inj.1 h1, String.toList_inj.1 h2⟩

theorem kind_inj {kind kind' : ArtifactKind} {rest rest' : String}
    (h : kind.value ++ ("/g" ++ rest) = kind'.value ++ ("/g" ++ rest')) :
    kind = kind' ∧ rest = rest' := by
  have h' := congrArg String.toList h
  simp only [String.toList_append] at h'
  rw [show "/g".toList = ['/', 'g'] by decide] at h'
  obtain ⟨h1, h2⟩ := Text.split_inj kind.slash_notMem kind'.slash_notMem h'
  exact ⟨ArtifactKind.value_inj.1 (String.toList_inj.1 h1),
    String.toList_inj.1 (List.cons.inj h2).2⟩

theorem artifact_inj {p p' c c' : Uuid} {k k' : ArtifactKind} {g g' : Nat}
    (h : artifact p c k g = artifact p' c' k' g') : p = p' ∧ c = c' ∧ k = k' ∧ g = g' := by
  unfold artifact at h
  simp only [String.append_assoc] at h
  obtain ⟨-, h⟩ := append_inj rfl h
  obtain ⟨hp, h⟩ := append_inj (by rw [p.str_length, p'.str_length]) h
  obtain ⟨-, h⟩ := append_inj rfl h
  obtain ⟨hc, h⟩ := append_inj (by rw [c.str_length, c'.str_length]) h
  obtain ⟨-, h⟩ := append_inj rfl h
  obtain ⟨hk, h⟩ := kind_inj h
  have hg : g.repr.toList = g'.repr.toList := by
    have h' := congrArg String.toList h
    rw [String.toList_append, String.toList_append] at h'
    exact List.append_cancel_right h'
  exact ⟨Uuid.str_inj.1 hp, Uuid.str_inj.1 hc, hk, Text.repr_inj hg⟩

theorem owner_inj {p p' c c' : Uuid} {rest rest' : String}
    (h : "projects/" ++ (p.str ++ ("/contracts/" ++ (c.str ++ rest))) =
      "projects/" ++ (p'.str ++ ("/contracts/" ++ (c'.str ++ rest')))) :
    p = p' ∧ c = c' ∧ rest = rest' := by
  obtain ⟨-, h⟩ := append_inj rfl h
  obtain ⟨hp, h⟩ := append_inj (by rw [p.str_length, p'.str_length]) h
  obtain ⟨-, h⟩ := append_inj rfl h
  obtain ⟨hc, h⟩ := append_inj (by rw [c.str_length, c'.str_length]) h
  exact ⟨Uuid.str_inj.1 hp, Uuid.str_inj.1 hc, h⟩

theorem contractFile_inj {p p' c c' : Uuid} {v v' : Nat} {name name' : String}
    (h : contractFile p c v name = contractFile p' c' v' name') : p = p' ∧ c = c' ∧ v = v' := by
  unfold contractFile at h
  simp only [String.append_assoc] at h
  obtain ⟨hp, hc, h⟩ := owner_inj h
  obtain ⟨-, h⟩ := append_inj rfl h
  have h' := congrArg String.toList h
  simp only [String.toList_append] at h'
  rw [show "/".toList = ['/'] by decide] at h'
  exact ⟨hp, hc, Text.repr_inj
    (Text.split_inj (Text.notMem_repr (by decide) v) (Text.notMem_repr (by decide) v') h').1⟩

theorem contractPrefix_inj {p p' c c' : Uuid} {v : Nat} {name : String}
    (h : Text.startsWith (contractPrefix p c) (contractFile p' c' v name) = true) :
    p = p' ∧ c = c' := by
  obtain ⟨rest, hrest⟩ := List.isPrefixOf_iff_prefix.1 h
  have h' : contractPrefix p c ++ String.ofList rest = contractFile p' c' v name := by
    rw [← String.toList_inj, String.toList_append, String.toList_ofList]
    exact hrest
  unfold contractPrefix contractFile at h'
  simp only [String.append_assoc] at h'
  obtain ⟨hp, hc, -⟩ := owner_inj h'
  exact ⟨hp, hc⟩

/-! ## File names -/

/-- What `_safe` keeps of the stem of a file name: the base name with its unsafe runs replaced, from
the first character that is neither a dot nor a blank. -/
def keptStem (stem : String) : List Char :=
  let slashed := String.ofList (stem.toList.map fun c => if c = '\\' then '/' else c)
  let base := (Text.splitOn '/' slashed).getLastD ""
  (Text.replaceRuns isSafe '_' false base.toList).dropWhile (· ∈ ['.', ' '])

/-- The name that is stored for a stem and an extension, before it is cut. -/
def joined (stem : String) (ext : List Char) : List Char :=
  if keptStem stem = [] then ext else keptStem stem ++ '.' :: ext

theorem safe_append {stem : String} {ext : List Char} (hne : ext ≠ [])
    (hext : ∀ c ∈ ext, isSafe c = true ∧ c ∉ ['.', ' ']) :
    safe (stem ++ String.ofList ('.' :: ext)) = Text.take 255 (String.ofList (joined stem ext)) := by
  have hslash : '/' ∉ '.' :: ext := by
    intro h
    rcases List.mem_cons.1 h with h | h
    · cases h
    · exact absurd (hext _ h).1 (by decide)
  have hplain : ('.' :: ext).map (fun c => if c = '\\' then '/' else c) = '.' :: ext := by
    refine (List.map_congr_left fun c hc => if_neg ?_).trans (List.map_id _)
    rintro rfl
    rcases List.mem_cons.1 hc with h | h
    · cases h
    · exact absurd (hext _ h).1 (by decide)
  have hlast : ∀ (x : List Char) (c : Char), (x ++ '.' :: ext).getLast? = some c →
      decide (c ∈ ['.', ' ']) = false := by
    intro x c hc
    rw [List.getLast?_append, List.getLast?_cons, Option.some_or, ← List.getLastD_eq_getLast?]
      at hc
    have hmem : c ∈ ext := by
      rw [← Option.some.inj hc, List.getLastD_eq_getLast?, List.getLast?_eq_some_getLast hne]
      exact List.getLast_mem hne
    exact decide_eq_false (hext c hmem).2
  have hdots : ('.' :: ext).dropWhile (fun c => decide (c ∈ ['.', ' '])) = ext := by
    rw [List.dropWhile_cons_of_pos (by decide)]
    exact Text.dropWhile_eq_self fun c hc =>
      decide_eq_false (hext c (List.mem_of_mem_head? hc)).2
  unfold safe joined keptStem
  simp only [String.toList_append, List.map_append, String.toList_ofList, hplain, Text.splitOn,
    Text.getLastD_partsFrom_append hslash]
  rw [Text.replaceRuns_append_cons (by decide),
    Text.replaceRuns_eq_self fun c hc => (hext c hc).1, Text.trim_ofList (hlast _),
    List.dropWhile_append, hdots]
  simp only [List.isEmpty_iff]
  generalize List.dropWhile _ (Text.replaceRuns _ _ _ _) = kept
  have hnonempty : String.ofList (if kept = [] then ext else kept ++ '.' :: ext) ≠ "" := by
    split <;> simp [hne]
  exact congrArg (Text.take 255) (if_neg hnonempty)

/-- Two extensions that start differently are told apart unless the stem fills the name. -/
theorem safe_append_eq_iff {stem : String} {a b : Char} {x y : List Char} (hab : a ≠ b)
    (hx : ∀ c ∈ a :: x, isSafe c = true ∧ c ∉ ['.', ' '])
    (hy : ∀ c ∈ b :: y, isSafe c = true ∧ c ∉ ['.', ' ']) :
    safe (stem ++ String.ofList ('.' :: a :: x)) = safe (stem ++ String.ofList ('.' :: b :: y)) ↔
      254 ≤ (keptStem stem).length := by
  rw [safe_append (List.cons_ne_nil _ _) hx, safe_append (List.cons_ne_nil _ _) hy]
  unfold Text.take joined
  rw [String.ofList_inj, String.toList_ofList, String.toList_ofList]
  by_cases hkept : keptStem stem = []
  · simp [hkept, hab]
  · have hlen : 0 < (keptStem stem).length := List.length_pos_iff.2 hkept
    rw [if_neg hkept, if_neg hkept, List.take_append, List.take_append]
    constructor
    · intro h
      by_contra hshort
      have hrest := List.append_cancel_left h
      rw [show 255 - (keptStem stem).length = (253 - (keptStem stem).length) + 2 by omega] at hrest
      simp [hab] at hrest
    · intro hlong
      have hrest : 255 - (keptStem stem).length ≤ 1 := by omega
      rcases Nat.le_one_iff_eq_zero_or_eq_one.1 hrest with h | h <;> rw [h] <;> simp

end StorageKey

end Clear
