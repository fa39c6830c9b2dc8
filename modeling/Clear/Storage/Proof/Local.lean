import Clear.Core.Proof.Text
import Clear.Storage.Local
import Mathlib.Data.List.Perm.Subperm

/-!
# What the local store keeps apart

A write to a path is seen at another path exactly if one is above the other, or the temporary path
is at or above it (`isolated_iff`). An accepted key leads into its container or into one whose name
starts with the container's (`exists_of_path?`). A listed key leads back to the file it was made of
(`path?_keyStr`). Together they say when an operation touches its own object only
(`touchesOwn_iff`).
-/

namespace Clear

namespace LocalStorage

variable {fs fs' fs'' : Fs} {p q r : Path} {root : Path}

/-! ## What a write changes -/

def Touches (p : Path) (fs fs' : Fs) : Prop :=
  ∀ q, q ≠ p → q ≠ tmp p → fs'.node q = fs.node q ∨
    (q <+: p.dropLast ∧ fs.node q = none ∧ fs'.node q = some .dir)

theorem Touches.refl (p : Path) (fs : Fs) : Touches p fs fs := fun _ _ _ => .inl rfl

theorem Touches.trans (h : Touches p fs fs') (h' : Touches p fs' fs'') : Touches p fs fs'' := by
  intro q hp htmp
  rcases h q hp htmp with heq | ⟨hq, hnone, hdir⟩
  · rcases h' q hp htmp with heq' | ⟨hq, hnone, hdir⟩
    · exact .inl (heq'.trans heq)
    · exact .inr ⟨hq, heq ▸ hnone, hdir⟩
  · rcases h' q hp htmp with heq' | ⟨-, hnone', -⟩
    · exact .inr ⟨hq, hnone, heq'.trans hdir⟩
    · rw [hdir] at hnone'
      cases hnone'

theorem touches_mkdirs (h : fs.mkdirs p.dropLast = some fs') : Touches p fs fs' := by
  intro q _ _
  rw [FileTree.node_mkdirs h q]
  split
  next hq =>
    cases hnode : fs.node q with
    | none => exact .inr ⟨hq, rfl, rfl⟩
    | some found =>
      cases found with
      | dir => exact .inl rfl
      | file data => exact absurd hnode (FileTree.ne_file_of_mkdirs h hq data)
  next => exact .inl rfl

theorem touches_write {data : Bytes} (hr : r = p ∨ r = tmp p) (h : fs.write r data = some fs') :
    Touches p fs fs' := by
  intro q hp htmp
  have hne : q ≠ r := by
    rcases hr with hr | hr
    · exact hr ▸ hp
    · exact hr ▸ htmp
  rw [(FileTree.write_eq_some h).2.2.2, if_neg hne]
  exact .inl rfl

theorem touches_removeFiles (hr : r = p ∨ r = tmp p) :
    Touches p fs (fs.removeFiles (· = r)) := by
  intro q hp htmp
  have hne : q ≠ r := by
    rcases hr with hr | hr
    · exact hr ▸ hp
    · exact hr ▸ htmp
  refine .inl ?_
  rw [FileTree.node_removeFiles]
  cases fs.node q with
  | none => rfl
  | some found => simp [FileTree.unlessNamed, hne]

theorem touches_replace (h : replace fs (tmp p) p = some fs') : Touches p fs fs' := by
  unfold replace at h
  split at h
  next => exact (touches_removeFiles (.inr rfl)).trans (touches_write (.inl rfl) h)
  next => cases h

theorem touches_putBytes (fs : Fs) (p : Path) (data : Bytes) :
    Touches p fs (putBytes fs p data).1 := by
  unfold putBytes
  cases hmkdirs : fs.mkdirs p.dropLast with
  | none => exact .refl p fs
  | some fs1 =>
    dsimp only
    cases hwrite : fs1.write (tmp p) data with
    | none => exact touches_mkdirs hmkdirs
    | some fs2 =>
      have hfirst := (touches_mkdirs hmkdirs).trans (touches_write (.inr rfl) hwrite)
      dsimp only
      cases hreplace : replace fs2 (tmp p) p with
      | none => exact hfirst
      | some fs3 => exact hfirst.trans (touches_replace hreplace)

theorem touches_putStream (fs : Fs) (p : Path) (data : Bytes) (ended : StreamEnd) :
    Touches p fs (putStream fs p data ended).1 := by
  unfold putStream
  cases hmkdirs : fs.mkdirs p.dropLast with
  | none => exact .refl p fs
  | some fs1 =>
    dsimp only
    cases hwrite : fs1.write (tmp p) data with
    | none => exact touches_mkdirs hmkdirs
    | some fs2 =>
      have hfirst := (touches_mkdirs hmkdirs).trans (touches_write (.inr rfl) hwrite)
      cases ended with
      | raised => exact hfirst
      | osError => exact hfirst.trans (touches_removeFiles (.inr rfl))
      | done =>
        dsimp only
        cases hreplace : replace fs2 (tmp p) p with
        | none => exact hfirst.trans (touches_removeFiles (.inr rfl))
        | some fs3 => exact hfirst.trans (touches_replace hreplace)

theorem touches_delete (fs : Fs) (p : Path) : Touches p fs (delete fs p).1 := by
  unfold delete
  split
  · exact touches_removeFiles (.inl rfl)
  · exact .refl p fs
  · exact .refl p fs

theorem touches_copy (fs : Fs) (source p : Path) : Touches p fs (copy fs source p).1 := by
  unfold copy
  split
  · exact touches_putBytes fs p _
  · exact .refl p fs

theorem Touches.sameView (h : Touches p fs fs') (hapart : Apart p q) : SameView fs fs' q := by
  obtain ⟨hbelow, habove, htmp⟩ := hapart
  have hnode : fs'.node q = fs.node q := by
    rcases h q (fun heq => hbelow (heq ▸ List.prefix_refl _))
      (fun heq => htmp (heq ▸ List.prefix_refl _)) with heq | ⟨hq, -, -⟩
    · exact heq
    · exact absurd (hq.trans (List.dropLast_prefix p)) habove
  have hread : fs'.read q = fs.read q := by
    refine FileTree.read_congr hnode fun r hr => ?_
    rcases h r (fun heq => hbelow (heq ▸ hr)) (fun heq => htmp (heq ▸ hr)) with heq | ⟨-, hn, hd⟩
    · rw [heq]
    · rw [hn, hd]
      rfl
  unfold SameView getBytes fileExists
  rw [hread, hnode]
  exact ⟨rfl, rfl⟩

theorem isolated_of_apart (hapart : Apart p q) : Isolated root p q := fun fs _ =>
  ⟨fun data => (touches_putBytes fs p data).sameView hapart,
    fun data ended => (touches_putStream fs p data ended).sameView hapart,
    (touches_delete fs p).sameView hapart,
    fun source => (touches_copy fs source p).sameView hapart⟩

/-! ## What a write is seen at -/

theorem tmp_ne (name : FileName) : name.tmp ≠ name := by
  intro h
  have htext := congrArg (·.text.toList.length) h
  simp only [FileName.tmp, String.toList_append, List.length_append] at htext
  rw [show ".tmp".toList.length = 4 by decide] at htext
  omega

theorem tmp_concat (p : Path) (name : FileName) : tmp (p ++ [name]) = p ++ [name.tmp] := by
  simp [tmp]

theorem tmp_spec (hp : p ≠ []) : tmp p ≠ p ∧ tmp p ≠ [] ∧ (tmp p).dropLast = p.dropLast ∧
    (tmp p).length = p.length := by
  rw [← List.dropLast_concat_getLast hp, tmp_concat]
  refine ⟨fun h => ?_, by simp, by simp, by simp⟩
  exact tmp_ne _ (List.singleton_inj.1 (List.append_cancel_left h))

theorem le_dropLast_or_eq (h : q <+: p) : q <+: p.dropLast ∨ q = p := by
  by_cases hp : p = []
  · rw [hp] at h
    exact .inr ((List.prefix_nil.1 h).trans hp.symm)
  · rw [← List.dropLast_concat_getLast hp] at h
    rcases List.prefix_concat_iff.1 h with heq | hle
    · exact .inr (heq.trans (List.dropLast_concat_getLast hp))
    · exact .inl hle

theorem not_le_dropLast (hp : p ≠ []) (hlength : p.length ≤ q.length) : ¬ q <+: p.dropLast := by
  intro h
  have hle := h.length_le
  have hpos := List.length_pos_iff.2 hp
  rw [List.length_dropLast] at hle
  omega

/-- Where no file is in the way, a write succeeds. -/
theorem node_putBytes (data : Bytes) (hp : p ≠ [])
    (hfree : ∀ q, q <+: p.dropLast → ∀ data, fs.node q ≠ some (.file data))
    (htmp : fs.node (tmp p) ≠ some .dir) (hdir : fs.node p ≠ some .dir) (q : Path) :
    (putBytes fs p data).1.node q = if q = p then some (.file data) else if q = tmp p then none
      else if q <+: p.dropLast then some .dir else fs.node q := by
  obtain ⟨hne, hnil, hparent, hlength⟩ := tmp_spec hp
  obtain ⟨fs1, hmkdirs⟩ := FileTree.exists_mkdirs hfree
  have hnode1 := FileTree.node_mkdirs hmkdirs
  have hdir1 : fs1.node p.dropLast = some .dir := by rw [hnode1, if_pos (List.prefix_refl _)]
  obtain ⟨fs2, hwrite⟩ := FileTree.exists_write data (t := fs1) hnil
    (hparent ▸ hdir1) (by rwa [hnode1, if_neg (not_le_dropLast hp hlength.ge)])
  have hnode2 := (FileTree.write_eq_some hwrite).2.2.2
  have hnode2' : ∀ q, (fs2.removeFiles (· = tmp p)).node q =
      if q = tmp p then none else fs1.node q := by
    intro q
    rw [FileTree.node_removeFiles, hnode2]
    by_cases heq : q = tmp p
    · simp [heq, FileTree.unlessNamed]
    · rw [if_neg heq, if_neg heq]
      cases fs1.node q with
      | none => rfl
      | some found => simp [FileTree.unlessNamed, heq]
  have hparentNe : p.dropLast ≠ tmp p := fun h =>
    not_le_dropLast hp hlength.ge (h ▸ List.prefix_refl _)
  obtain ⟨fs3, hfinal⟩ := FileTree.exists_write data (t := fs2.removeFiles (· = tmp p)) hp
    (by rw [hnode2', if_neg hparentNe, hdir1])
    (by rwa [hnode2', if_neg (Ne.symm hne), hnode1, if_neg (not_le_dropLast hp le_rfl)])
  have hreplace : replace fs2 (tmp p) p = some fs3 := by
    unfold replace
    rw [hnode2, if_pos rfl]
    exact hfinal
  have hput : (putBytes fs p data).1 = fs3 := by
    unfold putBytes
    simp only [hmkdirs, hwrite, hreplace]
  rw [hput, (FileTree.write_eq_some hfinal).2.2.2, hnode2', hnode1]

theorem exists_rootTree (root : Path) : ∃ fs : Fs,
    ∀ q, fs.node q = if q <+: root then some .dir else none := by
  have hempty : ∀ q : Path, (FileTree.empty : Fs).node q = if q = [] then some .dir else none := by
    intro q
    split
    next h => rw [h, FileTree.node_root]
    next h => rw [FileTree.node_empty h]
  obtain ⟨fs, hfs⟩ := FileTree.exists_mkdirs (t := (FileTree.empty : Fs)) (p := root)
    (fun q _ data => by rw [hempty]; split <;> simp)
  refine ⟨fs, fun q => ?_⟩
  rw [FileTree.node_mkdirs hfs, hempty]
  split
  next => rfl
  next h =>
    have hne : q ≠ [] := fun hq => h (hq ▸ List.nil_prefix)
    rw [if_neg hne]

theorem exists_fileTree (hp : p ≠ []) (data : Bytes) : ∃ fs : Fs, ∀ q,
    fs.node q = if q = p then some (.file data) else if q <+: p.dropLast then some .dir
      else none := by
  obtain ⟨fs, hfs⟩ := exists_rootTree p.dropLast
  obtain ⟨fs', hwrite⟩ := FileTree.exists_write data (t := fs) hp
    (by rw [hfs, if_pos (List.prefix_refl _)])
    (by rw [hfs, if_neg (not_le_dropLast hp le_rfl)]; simp)
  refine ⟨fs', fun q => ?_⟩
  rw [(FileTree.write_eq_some hwrite).2.2.2, hfs]

def Below (root p : Path) : Prop := ∃ name rest, p = root ++ name :: rest

theorem Below.ne_nil (h : Below root p) : p ≠ [] := by
  obtain ⟨name, rest, rfl⟩ := h
  simp

theorem Below.not_above (h : Below root p) : ¬ p <+: root := by
  obtain ⟨name, rest, rfl⟩ := h
  intro hle
  have hlength := hle.length_le
  rw [List.length_append, List.length_cons] at hlength
  omega

theorem Below.root_le_dropLast (h : Below root p) : root <+: p.dropLast := by
  obtain ⟨name, rest, rfl⟩ := h
  rw [List.dropLast_append_of_ne_nil (by simp)]
  exact List.prefix_append _ _

theorem comparable_of_isolated (hp : Below root p) (hq : Below root q)
    (h : Isolated root p q) : ¬ p <+: q ∧ ¬ q <+: p := by
  obtain ⟨fs, hfs⟩ := exists_rootTree root
  have hnofile : ∀ q data, fs.node q ≠ some (.file data) := by
    intro q data
    rw [hfs]
    split <;> simp
  have hnone : ∀ q, ¬ q <+: root → fs.node q = none := fun q h => by rw [hfs, if_neg h]
  have hput := node_putBytes [] hp.ne_nil (fun q _ => hnofile q)
    (by
      rw [hnone]
      · simp
      · intro hle
        have := hle.length_le
        rw [(tmp_spec hp.ne_nil).2.2.2] at this
        have := hp.root_le_dropLast.length_le
        rw [List.length_dropLast] at this
        have := List.length_pos_iff.2 hp.ne_nil
        omega)
    (by rw [hnone p hp.not_above]; simp)
  obtain ⟨hget, hexists⟩ := (h fs (by rw [hfs, if_pos (List.prefix_refl _)])).1 []
  unfold fileExists at hexists
  rw [hnone q hq.not_above] at hexists
  have hafter : (putBytes fs p []).1.node q = none := by simpa using hexists
  refine ⟨fun hbelow => ?_, fun habove => ?_⟩
  · have hbefore : getBytes fs q = .error .notFound := by
      unfold getBytes
      rw [FileTree.read_of_free (hnone q hq.not_above) fun q _ => hnofile q]
    have hnow : getBytes (putBytes fs p []).1 q = .error .storage := by
      unfold getBytes
      rw [FileTree.read_below_file hafter hbelow (by rw [hput, if_pos rfl])]
    rw [hbefore, hnow] at hget
    cases hget
  · have hdir : (putBytes fs p []).1.node q ≠ none := by
      rw [hput]
      by_cases heq : q = p
      · simp [heq]
      · have hparent : q <+: p.dropLast := by
          rw [← List.dropLast_concat_getLast hp.ne_nil] at habove heq
          exact (List.prefix_concat_iff.1 habove).resolve_left heq
        have htmp : q ≠ tmp p := fun h =>
          not_le_dropLast hp.ne_nil (tmp_spec hp.ne_nil).2.2.2.ge (h ▸ hparent)
        simp [heq, htmp, hparent]
    exact hdir hafter

theorem tmp_of_isolated (hp : Below root p) (h : Isolated root p q) : ¬ tmp p <+: q := by
  intro hle
  obtain ⟨hne, hnil, hparent, hlength⟩ := tmp_spec hp.ne_nil
  obtain ⟨fs, hfs⟩ := exists_fileTree hnil []
  rw [hparent] at hfs
  have hroot : fs.node root = some .dir := by
    have hroot' : root ≠ tmp p := by
      intro heq
      have := hp.root_le_dropLast.length_le
      rw [List.length_dropLast, heq, hlength] at this
      have := List.length_pos_iff.2 hp.ne_nil
      omega
    rw [hfs, if_neg hroot', if_pos hp.root_le_dropLast]
  have hput := node_putBytes [] hp.ne_nil
    (fun q hq data => by
      have hq' : q ≠ tmp p := fun heq => not_le_dropLast hp.ne_nil hlength.ge (heq ▸ hq)
      rw [hfs, if_neg hq', if_pos hq]
      simp)
    (by rw [hfs, if_pos rfl]; simp)
    (by rw [hfs, if_neg (Ne.symm hne), if_neg (not_le_dropLast hp.ne_nil le_rfl)]; simp)
  obtain ⟨hget, hexists⟩ := (h fs hroot).1 []
  by_cases heq : q = tmp p
  · unfold fileExists at hexists
    rw [heq, hput, if_neg hne, if_pos rfl, hfs, if_pos rfl] at hexists
    cases hexists
  · have hlonger : p.length < q.length := by
      have hle' := hle.length_le
      rw [hlength] at hle'
      refine lt_of_le_of_ne hle' fun hsame => heq ?_
      exact (hle.eq_of_length (hlength.trans hsame)).symm
    have hq : q ≠ p := fun h => by rw [h] at hlonger; omega
    have hnone : fs.node q = none := by
      rw [hfs, if_neg heq, if_neg (not_le_dropLast hp.ne_nil hlonger.le)]
    have hbefore : getBytes fs q = .error .storage := by
      unfold getBytes
      rw [FileTree.read_below_file hnone hle (by rw [hfs, if_pos rfl])]
    have hnow : getBytes (putBytes fs p []).1 q = .error .notFound := by
      unfold getBytes
      rw [FileTree.read_of_free]
      · rw [hput, if_neg hq, if_neg heq, if_neg (not_le_dropLast hp.ne_nil hlonger.le), hnone]
      · intro r hr data
        rw [hput]
        split
        next hrp =>
          -- the path and its temporary path are not both above
          refine absurd ?_ hne
          exact (List.prefix_of_prefix_length_le hle (hrp ▸ hr) hlength.le).eq_of_length hlength
        next =>
          split
          next => simp
          next hrtmp =>
            split
            next => simp
            next hr' => rw [hfs, if_neg hrtmp, if_neg hr']; simp
    rw [hbefore, hnow] at hget
    cases hget

theorem isolated_iff (hp : Below root p) (hq : Below root q) :
    Isolated root p q ↔ Apart p q := by
  refine ⟨fun h => ?_, isolated_of_apart⟩
  obtain ⟨hbelow, habove⟩ := comparable_of_isolated hp hq h
  exact ⟨hbelow, habove, tmp_of_isolated hp h⟩

/-! ## Which keys are accepted -/

theorem slash_notMem (name : FileName) : '/' ∉ name.text.toList := fun h =>
  (name.isName.2.2.2 _ h).1 rfl

theorem pathChars_cons (name : FileName) (p : Path) :
    pathChars (name :: p) = '/' :: (name.text.toList ++ pathChars p) := by
  simp [pathChars]

theorem pathChars_append (p q : Path) : pathChars (p ++ q) = pathChars p ++ pathChars q :=
  List.flatMap_append

theorem pathChars_cases (p : Path) : pathChars p = [] ∨ ∃ chars, pathChars p = '/' :: chars := by
  cases p with
  | nil => exact .inl rfl
  | cons name p => exact .inr ⟨_, pathChars_cons name p⟩

theorem name_of_le {s t chars : List Char} (hs : '/' ∉ s)
    (hchars : chars = [] ∨ ∃ rest, chars = '/' :: rest) (h : s <+: t ++ chars) : s <+: t := by
  rcases hchars with rfl | ⟨rest, rfl⟩
  · rwa [List.append_nil] at h
  · rcases List.prefix_or_prefix_of_prefix h (List.prefix_append t _) with hle | ⟨l, rfl⟩
    · exact hle
    · cases l with
      | nil => rw [List.append_nil]
      | cons c l =>
        have hslash := (List.cons_prefix_cons.1 ((List.prefix_append_right_inj t).1 h)).1
        exact absurd (by simp [hslash]) hs

/-- A container's path that starts another path in characters starts it in names, but for the end
of its last name. -/
theorem below_of_chars {container : FileName} {t : Path}
    (h : pathChars (root ++ [container]) <+: pathChars t) :
    ∃ name rest, t = root ++ name :: rest ∧ container.text.toList <+: name.text.toList := by
  induction root generalizing t with
  | nil =>
    cases t with
    | nil =>
      rw [List.nil_append, pathChars_cons] at h
      exact absurd (List.prefix_nil.1 h) (by simp)
    | cons name rest =>
      rw [List.nil_append, pathChars_cons, pathChars_cons, List.cons_prefix_cons] at h
      have hle := (List.prefix_append _ _).trans h.2
      exact ⟨name, rest, rfl, name_of_le (slash_notMem container) (pathChars_cases rest) hle⟩
  | cons top root ih =>
    cases t with
    | nil =>
      rw [List.cons_append, pathChars_cons] at h
      exact absurd (List.prefix_nil.1 h) (by simp)
    | cons name rest =>
      rw [List.cons_append, pathChars_cons, pathChars_cons, List.cons_prefix_cons] at h
      obtain ⟨-, chars, hchars⟩ := h
      obtain ⟨chars', hchars'⟩ : ∃ chars, pathChars (root ++ [container]) = '/' :: chars := by
        cases root with
        | nil => exact ⟨_, pathChars_cons _ _⟩
        | cons => exact ⟨_, pathChars_cons _ _⟩
      rw [hchars', List.append_assoc, List.cons_append] at hchars
      rcases pathChars_cases rest with hnil | ⟨rest', hrest⟩
      · rw [hnil, List.append_nil] at hchars
        exact absurd (hchars ▸ by simp) (slash_notMem name)
      · rw [hrest] at hchars
        obtain ⟨htext, hrest'⟩ := Text.split_inj (slash_notMem top) (slash_notMem name) hchars
        have htop : top = name := by
          cases top
          cases name
          simpa [String.toList_inj] using htext
        have hle : pathChars (root ++ [container]) <+: pathChars rest :=
          ⟨chars, by rw [hchars', hrest, List.cons_append, hrest']⟩
        obtain ⟨name', rest'', heq, hname⟩ := ih hle
        exact ⟨name', rest'', by rw [htop, heq, List.cons_append], hname⟩

theorem exists_of_path? {o : Object} (h : path? root o = some p) :
    ∃ name rest, p = root ++ name :: rest ∧
      o.container.text.toList <+: name.text.toList := by
  obtain ⟨-, hstarts⟩ := Option.filter_eq_some_iff.1 h
  unfold Text.startsWith pathStr bucketRoot at hstarts
  rw [List.isPrefixOf_iff_prefix, if_neg (by simp), String.toList_ofList] at hstarts
  split at hstarts
  next =>
    have hlength := hstarts.length_le
    have hpos : 0 < o.container.text.toList.length := by
      rw [List.length_pos_iff]
      exact fun hnil => o.container.isName.1 (String.toList_inj.1 hnil)
    rw [show "/".toList.length = 1 by decide, pathChars_append] at hlength
    simp only [pathChars, List.flatMap_singleton, List.length_append, List.length_cons] at hlength
    omega
  next =>
    rw [String.toList_ofList] at hstarts
    exact below_of_chars hstarts

theorem below_of_path? {o : Object} (h : path? root o = some p) : Below root p := by
  obtain ⟨name, rest, heq, -⟩ := exists_of_path? h
  exact ⟨name, rest, heq⟩

theorem inside_iff_noSibling {o : Object} :
    (∀ p ∈ path? root o, bucketRoot root o.container <+: p) ↔ NoSibling root o := by
  refine forall_congr' fun p => forall_congr' fun hp => ?_
  obtain ⟨name, rest, heq, -⟩ := exists_of_path? hp
  unfold bucketRoot
  rw [heq, List.prefix_append_right_inj, List.cons_prefix_cons]
  constructor
  · intro h name' rest' heq'
    rw [List.append_cancel_left_eq, List.cons.injEq] at heq'
    rw [← heq'.1, h.1]
  · intro h
    exact ⟨(h name rest rfl).symm, List.nil_prefix⟩

/-! ## Listed keys -/

theorem parts_pathChars {s : List Char} (hs : '/' ∉ s) (p : Path) :
    Text.partsFrom '/' [] (s ++ pathChars p) = String.ofList s :: p.map (·.text) := by
  induction p generalizing s with
  | nil =>
    rw [show pathChars [] = [] from rfl, List.append_nil, Text.partsFrom_of_notMem hs]
    rfl
  | cons name p ih =>
    rw [pathChars_cons, Text.partsFrom_append_cons hs, ih (slash_notMem name),
      String.ofList_toList]
    rfl

theorem descend_name (p : Path) (name : FileName) : descend p name.text = p ++ [name] := by
  unfold descend
  rw [if_neg name.isName.2.2.1, dif_pos name.isName]

theorem foldl_descend (p relative : Path) :
    (relative.map (·.text)).foldl descend p = p ++ relative := by
  induction relative generalizing p with
  | nil => simp
  | cons name relative ih =>
    rw [List.map_cons, List.foldl_cons, descend_name, ih, List.append_assoc, List.singleton_append]

theorem zero_notMem_pathChars (p : Path) : Char.ofNat 0 ∉ pathChars p := by
  unfold pathChars
  intro h
  obtain ⟨name, -, hmem⟩ := List.mem_flatMap.1 h
  rcases List.mem_cons.1 hmem with heq | hmem
  · revert heq
    decide
  · exact (name.isName.2.2.2 _ hmem).2 rfl

theorem keyStr_cons (name : FileName) (relative : Path) :
    keyStr (name :: relative) = String.ofList (name.text.toList ++ pathChars relative) := by
  unfold keyStr
  rw [if_neg (by simp), pathChars_cons]
  rfl

theorem resolve_keyStr (base relative : Path) :
    resolve base (keyStr relative) = some (base ++ relative) := by
  unfold resolve
  cases relative with
  | nil =>
    have hdot : descend base "." = base := by
      unfold descend
      rw [if_neg (by decide), dif_neg (by decide)]
    have hkey : keyStr [] = "." := rfl
    have hparts : Text.splitOn '/' "." = ["."] := by decide
    rw [hkey, if_neg (by decide), if_neg (by decide), hparts, List.foldl_cons, hdot,
      List.append_nil]
    rfl
  | cons name relative =>
    have hzero := zero_notMem_pathChars (name :: relative)
    rw [pathChars_cons, List.mem_cons, not_or] at hzero
    have hstart : Text.startsWith "/" (String.ofList (name.text.toList ++ pathChars relative)) =
        false := by
      have hchars : (String.ofList (name.text.toList ++ pathChars relative)).toList =
          name.text.toList ++ pathChars relative := String.toList_ofList
      unfold Text.startsWith
      rw [hchars]
      cases htext : name.text.toList with
      | nil => exact absurd (String.toList_inj.1 htext) name.isName.1
      | cons c chars =>
        have hc : c ≠ '/' := (name.isName.2.2.2 c (htext ▸ List.mem_cons_self)).1
        simp [List.isPrefixOf, Ne.symm hc]
    have hparts : Text.splitOn '/' (String.ofList (name.text.toList ++ pathChars relative)) =
        (name :: relative).map (·.text) := by
      unfold Text.splitOn
      rw [String.toList_ofList, parts_pathChars (slash_notMem name), String.ofList_toList]
      rfl
    rw [keyStr_cons, hparts, foldl_descend, hstart, String.toList_ofList,
      if_neg (by simpa using hzero.2), if_neg (by simp)]

theorem path?_keyStr (container : FileName) (relative : Path) :
    path? root ⟨container, keyStr relative⟩ = some (bucketRoot root container ++ relative) := by
  unfold path?
  rw [resolve_keyStr, Option.filter_some, if_pos]
  unfold Text.startsWith pathStr bucketRoot
  rw [if_neg (by simp), if_neg (by simp), String.toList_ofList, String.toList_ofList,
    List.isPrefixOf_iff_prefix, pathChars_append (root ++ [container])]
  exact List.prefix_append _ _

/-! ## What a prefix lists and deletes -/

theorem mem_filesBelow {top : Path} : p ∈ filesBelow fs top ↔
    (fs.node p).any FileNode.isFile = true ∧ top <+: p ∧ p ≠ top := by
  unfold filesBelow FileTree.node
  rw [List.mem_map]
  constructor
  · intro ⟨e, he, heq⟩
    obtain ⟨hmem, htest⟩ := List.mem_filter.1 he
    have hlookup := (Dict.lookup_eq_some_iff fs.nodup).2 (show (e.1, e.2) ∈ fs.entries from hmem)
    rw [← heq, hlookup]
    simpa using htest
  · intro ⟨hfile, hbelow⟩
    obtain ⟨n, hn⟩ : ∃ n, fs.entries.lookup p = some n := by
      cases h : fs.entries.lookup p with
      | none => simp [h] at hfile
      | some n => exact ⟨n, rfl⟩
    rw [hn] at hfile
    refine ⟨(p, n), List.mem_filter.2 ⟨(Dict.lookup_eq_some_iff fs.nodup).1 hn, ?_⟩, rfl⟩
    simpa using ⟨hfile, hbelow⟩

theorem nodup_filesBelow (fs : Fs) (top : Path) : (filesBelow fs top).Nodup :=
  fs.nodup.sublist (List.filter_sublist.map _)

def searchRoot (fs : Fs) (base : Path) : Path :=
  if fs.node base = some .dir then base else base.dropLast

theorem mem_candidates {base : Path} : p ∈ candidates fs base ↔
    ((fs.node p).any FileNode.isFile = true ∧ searchRoot fs base <+: p ∧ p ≠ searchRoot fs base) ∧
      isTemporary p = false := by
  unfold candidates searchRoot
  rw [List.mem_filter, (List.perm_insertionSort _ _).mem_iff, mem_filesBelow]
  simp

theorem nodup_candidates (fs : Fs) (base : Path) : (candidates fs base).Nodup := by
  unfold candidates
  exact ((List.perm_insertionSort _ _).nodup_iff.2 (nodup_filesBelow _ _)).filter _

theorem node_deletePrefix (glob : Glob) {base : Path}
    (hp : (fs.node p).any FileNode.isFile = true) :
    (deletePrefix glob fs base).1.node p = none ↔
      (doomed glob fs base).any (· p) = true := by
  obtain ⟨n, hn, hfile⟩ : ∃ n, fs.node p = some n ∧ n.isFile = true := by
    cases h : fs.node p with
    | none => simp [h] at hp
    | some n => exact ⟨n, rfl, by simpa [h] using hp⟩
  unfold deletePrefix
  by_cases hdir : fs.node base = some .dir
  · have hne : p ≠ base := by
      intro heq
      rw [← heq, hn, Option.some_inj] at hdir
      simp [hdir] at hfile
    have hnil : p ≠ [] := by
      intro heq
      rw [heq, FileTree.node_root, Option.some_inj] at hn
      simp [← hn] at hfile
    rw [if_pos hdir, FileTree.node_removeTree, hn]
    simp [FileTree.unlessBelow, doomed, hdir, hne, hnil]
  · rw [if_neg hdir]
    by_cases hparent : fs.node base.dropLast = none
    · rw [if_pos hparent]
      have hnot : ¬ (base.dropLast <+: p ∧ p ≠ base.dropLast) := by
        intro ⟨hle, hne⟩
        rw [FileTree.node_above (by rw [hn]; rfl) hle (Ne.symm hne)] at hparent
        cases hparent
      unfold doomed
      rw [if_neg hdir, hn]
      cases glob ((base.getLast?.map (·.text)).getD "" ++ "*") with
      | none => simp
      | some yields =>
        simp only [Option.map_some, Option.any_some, reduceCtorEq, false_iff, decide_eq_true_iff]
        exact fun h => hnot ⟨h.1, h.2.1⟩
    · rw [if_neg hparent]
      cases hdoomed : doomed glob fs base with
      | none => simp [hn]
      | some named =>
        dsimp only
        rw [FileTree.node_removeFiles, hn]
        simp [FileTree.unlessNamed, hfile]

section Collect

variable {bucket : Path} {start : String} {limit : Nat}

theorem collect_of_inside {keys : List String} {paths : List Path}
    (hinside : ∀ p ∈ paths, bucket <+: p) (hlimit : keys.length < limit) :
    collect bucket start limit keys paths = some (keys ++
      (((paths.filter (isNamed bucket start)).take (limit - keys.length)).map
        fun p => keyStr (p.drop bucket.length))) := by
  induction paths generalizing keys with
  | nil => simp [collect]
  | cons p paths ih =>
    have hrest := fun q hq => hinside q (List.mem_cons_of_mem p hq)
    unfold collect relativeTo
    rw [if_pos (hinside p List.mem_cons_self), List.filter_cons]
    dsimp only
    by_cases hnamed : isNamed bucket start p = true
    · have hlength : (keys ++ [keyStr (p.drop bucket.length)]).length = keys.length + 1 := by simp
      have hstarts : Text.startsWith start (keyStr (p.drop bucket.length)) = true := hnamed
      rw [if_pos hstarts, if_pos hnamed, hlength]
      split
      next hfull =>
        rw [show limit - keys.length = 1 by omega]
        rfl
      next hmore =>
        rw [ih hrest (by omega), hlength, List.append_assoc,
          show limit - keys.length = limit - (keys.length + 1) + 1 by omega, List.take_succ_cons]
        rfl
    · have hstarts : ¬ Text.startsWith start (keyStr (p.drop bucket.length)) = true := hnamed
      rw [if_neg hstarts, if_neg hnamed, if_neg (by omega), ih hrest hlimit]

theorem collect_of_outside {keys : List String} {paths : List Path}
    (houtside : ∃ p ∈ paths, ¬ bucket <+: p)
    (hlimit : keys.length + (paths.filter (bucket <+: ·)).length < limit) :
    collect bucket start limit keys paths = none := by
  induction paths generalizing keys with
  | nil => simp at houtside
  | cons p paths ih =>
    unfold collect relativeTo
    by_cases hp : bucket <+: p
    · obtain ⟨q, hq, hout⟩ := houtside
      have hrest : ∃ q ∈ paths, ¬ bucket <+: q := by
        rcases List.mem_cons.1 hq with rfl | hq
        · exact absurd hp hout
        · exact ⟨q, hq, hout⟩
      rw [List.filter_cons, if_pos (by simpa using hp), List.length_cons] at hlimit
      rw [if_pos hp]
      dsimp only
      split
      next =>
        rw [if_neg (by rw [List.length_append, List.length_singleton]; omega)]
        refine ih hrest ?_
        rw [List.length_append, List.length_singleton]
        omega
      next => rw [if_neg (by omega), ih hrest (by omega)]
    · rw [if_neg hp]

end Collect

/-! ## When a prefix deletes what it lists -/

variable {glob : Glob} {base : Path} {start : Object}

theorem candidates_of_none (h : fs.node (searchRoot fs base) = none) : candidates fs base = [] := by
  refine List.eq_nil_iff_forall_not_mem.2 fun p hp => ?_
  obtain ⟨⟨hfile, hle, hne⟩, -⟩ := mem_candidates.1 hp
  obtain ⟨n, hn, -⟩ := (Option.any_eq_true _ _).1 hfile
  rw [FileTree.node_above (by rw [hn]; rfl) hle (Ne.symm hne)] at h
  cases h

theorem listKeys_of_inside {bucket : Path} {text : String} {limit : Nat} (hlimit : 0 < limit)
    (hinside : ∀ p ∈ candidates fs base, bucket <+: p) :
    listKeys fs bucket base text limit =
      some ((((candidates fs base).filter (isNamed bucket text)).take limit).map
        fun p => keyStr (p.drop bucket.length)) := by
  unfold listKeys
  dsimp only
  by_cases hnone : fs.node (searchRoot fs base) = none
  · rw [candidates_of_none hnone]
    simp only [List.filter_nil, List.take_nil, List.map_nil]
    exact if_pos hnone
  · refine (if_neg hnone).trans ((collect_of_inside hinside hlimit).trans ?_)
    rw [List.nil_append, List.length_nil, Nat.sub_zero]

/-- A search that meets another container raises. -/
theorem listKeys_of_outside {bucket : Path} {text : String} (hbase : bucket <+: base)
    (hdir : fs.node base ≠ some .dir) (houtside : ∃ p ∈ candidates fs base, ¬ bucket <+: p) :
    listKeys fs bucket base text defaultLimit = none := by
  have hsearch : searchRoot fs base = base.dropLast := if_neg hdir
  -- only a container that is not a directory is searched from the root
  have hbucket : bucket = base := by
    obtain ⟨p, hp, hout⟩ := houtside
    obtain ⟨⟨-, hle, -⟩, -⟩ := mem_candidates.1 hp
    rw [hsearch] at hle
    refine (le_dropLast_or_eq hbase).resolve_left fun hparent => ?_
    exact hout (hparent.trans hle)
  have hlength : ((candidates fs base).filter (bucket <+: ·)).length ≤ 1 := by
    have hsub : (candidates fs base).filter (bucket <+: ·) ⊆ [base] := by
      intro p hp
      obtain ⟨hp, hle⟩ := List.mem_filter.1 hp
      obtain ⟨⟨hfile, -⟩, -⟩ := mem_candidates.1 hp
      obtain ⟨n, hn, -⟩ := (Option.any_eq_true _ _).1 hfile
      rw [hbucket, decide_eq_true_iff] at hle
      by_cases heq : base = p
      · exact List.mem_singleton.2 heq.symm
      · exact absurd (FileTree.node_above (by rw [hn]; rfl) hle heq) hdir
    exact (List.subperm_of_subset ((nodup_candidates fs base).filter _) hsub).length_le
  have hcollect : collect bucket text defaultLimit [] (candidates fs base) = none := by
    refine collect_of_outside houtside ?_
    unfold defaultLimit
    rw [List.length_nil]
    omega
  have hsome : fs.node (searchRoot fs base) ≠ none := by
    intro hnone
    obtain ⟨p, hp, -⟩ := houtside
    rw [candidates_of_none hnone] at hp
    cases hp
  unfold listKeys
  exact (if_neg hsome).trans hcollect

theorem exists_key_iff {container : FileName} {paths : List Path}
    (hinside : ∀ q ∈ paths, bucketRoot root container <+: q) :
    (∃ key ∈ paths.map fun q => keyStr (q.drop (bucketRoot root container).length),
      path? root ⟨container, key⟩ = some p) ↔ p ∈ paths := by
  have hback : ∀ q ∈ paths, path? root
      ⟨container, keyStr (q.drop (bucketRoot root container).length)⟩ = some q := by
    intro q hq
    obtain ⟨rest, rfl⟩ := hinside q hq
    rw [List.drop_left, path?_keyStr]
  constructor
  · intro h
    obtain ⟨key, hkey, hpath⟩ := h
    obtain ⟨q, hq, rfl⟩ := List.mem_map.1 hkey
    rw [hback q hq, Option.some_inj] at hpath
    exact hpath ▸ hq
  · intro h
    exact ⟨_, List.mem_map_of_mem h, hback p h⟩

theorem doomed_dir (hdir : fs.node base = some .dir)
    (hp : (fs.node p).any FileNode.isFile = true) :
    (doomed glob fs base).any (· p) = true ↔ p ∈ filesBelow fs base := by
  unfold doomed
  rw [if_pos hdir, mem_filesBelow, Option.any_some, decide_eq_true_iff]
  exact ⟨fun h => ⟨hp, h⟩, fun h => h.2⟩

theorem mem_filesBelow_of_doomed (hdir : fs.node base ≠ some .dir)
    (hp : (fs.node p).any FileNode.isFile = true)
    (h : (doomed glob fs base).any (· p) = true) : p ∈ filesBelow fs base.dropLast := by
  unfold doomed at h
  rw [if_neg hdir] at h
  obtain ⟨named, hnamed, hyes⟩ := (Option.any_eq_true _ _).1 h
  obtain ⟨yields, -, rfl⟩ := Option.map_eq_some_iff.1 hnamed
  have hbelow := of_decide_eq_true hyes
  exact mem_filesBelow.2 ⟨hp, hbelow.1, hbelow.2.1⟩

theorem mem_filesBelow_of_take {named : Path → Bool} {n : Nat}
    (h : p ∈ ((candidates fs base).filter named).take n) :
    p ∈ filesBelow fs (searchRoot fs base) ∧ isTemporary p = false ∧ named p = true := by
  obtain ⟨hmem, hnamed⟩ := List.mem_filter.1 (List.mem_of_mem_take h)
  obtain ⟨hbelow, htemporary⟩ := mem_candidates.1 hmem
  exact ⟨mem_filesBelow.2 hbelow, htemporary, hnamed⟩

theorem plainDirectory_iff {bucket : Path} {text : String} (hdir : fs.node base = some .dir) :
    (∀ p, p ∈ filesBelow fs base ↔
      p ∈ ((candidates fs base).filter (isNamed bucket text)).take defaultLimit) ↔
        PlainDirectory fs bucket base text := by
  have hsearch : searchRoot fs base = base := if_pos hdir
  constructor
  · intro h
    refine ⟨fun p hp => (mem_filesBelow_of_take ((h p).1 hp)).2, ?_⟩
    have hsub := List.subperm_of_subset (nodup_filesBelow fs base) fun p hp => (h p).1 hp
    exact hsub.length_le.trans (List.length_take_le _ _)
  · intro h p
    obtain ⟨hplain, hlength⟩ := h
    have hall : (candidates fs base).filter (isNamed bucket text) = candidates fs base := by
      refine List.filter_eq_self.2 fun q hq => (hplain q ?_).2
      rw [mem_candidates, hsearch] at hq
      exact mem_filesBelow.2 hq.1
    have hfew : (candidates fs base).length ≤ defaultLimit := by
      refine le_trans ?_ hlength
      refine (List.subperm_of_subset (nodup_candidates fs base) fun q hq => ?_).length_le
      rw [mem_candidates, hsearch] at hq
      exact mem_filesBelow.2 hq.1
    rw [hall, List.take_of_length_le hfew, mem_candidates, hsearch, ← mem_filesBelow]
    exact ⟨fun hp => ⟨hp, (hplain p hp).1⟩, fun hp => hp.1⟩

/-- Elsewhere only the parent's files count. -/
theorem plainNames_iff {bucket : Path} {text : String} (hdir : fs.node base ≠ some .dir)
    (hinside : ∀ p ∈ candidates fs base, bucket <+: p) :
    (∀ p, (fs.node p).any FileNode.isFile = true → ((doomed glob fs base).any (· p) = true ↔
      p ∈ ((candidates fs base).filter (isNamed bucket text)).take defaultLimit)) ↔
        PlainNames glob fs bucket base text := by
  have hsearch : searchRoot fs base = base.dropLast := if_neg hdir
  constructor
  · intro h
    refine ⟨fun p hp htemporary => hinside p ?_, fun p hp => h p (mem_filesBelow.1 hp).1⟩
    rw [mem_candidates, hsearch]
    exact ⟨mem_filesBelow.1 hp, htemporary⟩
  · intro h p hfile
    constructor
    · intro hdoomed
      exact (h.2 p (mem_filesBelow_of_doomed hdir hfile hdoomed)).1 hdoomed
    · intro htake
      have hbelow := (mem_filesBelow_of_take htake).1
      rw [hsearch] at hbelow
      exact (h.2 p hbelow).2 htake

theorem removesListed_iff (hsibling : NoSibling root start) :
    RemovesListed glob root fs start ↔ SameFiles glob root fs start := by
  refine forall_congr' fun base => forall_congr' fun hpath => ?_
  have hbase := inside_iff_noSibling.2 hsibling base hpath
  by_cases hinside : ∀ p ∈ candidates fs base, bucketRoot root start.container <+: p
  · have htake : ∀ q ∈ ((candidates fs base).filter
        (isNamed (bucketRoot root start.container) start.key)).take defaultLimit,
        bucketRoot root start.container <+: q := fun q hq =>
      hinside q (List.mem_filter.1 (List.mem_of_mem_take hq)).1
    have hfiles : (∃ keys, listKeys fs (bucketRoot root start.container) base start.key
          defaultLimit = some keys ∧ ∀ p, (fs.node p).any FileNode.isFile = true →
        ((deletePrefix glob fs base).1.node p = none ↔
          ∃ key ∈ keys, path? root ⟨start.container, key⟩ = some p)) ↔
        ∀ p, (fs.node p).any FileNode.isFile = true → ((doomed glob fs base).any (· p) = true ↔
          p ∈ ((candidates fs base).filter
            (isNamed (bucketRoot root start.container) start.key)).take defaultLimit) := by
      rw [listKeys_of_inside (by decide) hinside]
      simp only [Option.some_inj, exists_eq_left']
      refine forall_congr' fun p => forall_congr' fun hfile => ?_
      rw [node_deletePrefix glob hfile, exists_key_iff htake]
    rw [hfiles]
    split
    next hdir =>
      rw [← plainDirectory_iff hdir]
      refine forall_congr' fun p => ⟨fun h => ?_, fun h hfile => ?_⟩
      · constructor
        · intro hp
          have hfile := (mem_filesBelow.1 hp).1
          exact (h hfile).1 ((doomed_dir hdir hfile).2 hp)
        · intro hp
          have hfile := (mem_filesBelow.1 (mem_filesBelow_of_take hp).1).1
          exact (doomed_dir hdir hfile).1 ((h hfile).2 hp)
      · rw [doomed_dir hdir hfile, h]
    next hdir => exact plainNames_iff hdir hinside
  · have hdir : fs.node base ≠ some .dir := by
      intro hdir
      refine hinside fun p hp => ?_
      obtain ⟨⟨-, hle, -⟩, -⟩ := mem_candidates.1 hp
      rw [searchRoot, if_pos hdir] at hle
      exact hbase.trans hle
    push Not at hinside
    rw [listKeys_of_outside hbase hdir hinside, if_neg hdir]
    refine ⟨fun h => ?_, fun h => ?_⟩
    · obtain ⟨keys, hkeys, -⟩ := h
      cases hkeys
    · obtain ⟨p, hp, hout⟩ := hinside
      have hmem := mem_candidates.1 hp
      rw [searchRoot, if_neg hdir] at hmem
      exact absurd (h.1 p (mem_filesBelow.2 hmem.1) hmem.2) hout

theorem isName_of_head {s : String} {c : Char} {chars : List Char} (hs : s.toList = c :: chars)
    (hc : c ≠ '.') (h : ∀ d ∈ s.toList, d ≠ '/' ∧ d ≠ Char.ofNat 0) : IsName s := by
  refine ⟨?_, ?_, ?_, h⟩ <;> rintro rfl
  · cases hs
  · exact hc (List.cons.inj hs).1.symm
  · exact hc (List.cons.inj hs).1.symm

theorem isName_str (u : Uuid) : IsName u.str := by
  have hhex : ∀ d ∈ '-' :: Uuid.hexDigits, d ≠ '.' ∧ d ≠ '/' ∧ d ≠ Char.ofNat 0 := by
    simp [Uuid.hexDigits]
  have hmem : ∀ d ∈ u.str.toList, d ≠ '.' ∧ d ≠ '/' ∧ d ≠ Char.ofNat 0 :=
    fun d hd => hhex d (Uuid.mem_str hd)
  cases hs : u.str.toList with
  | nil => exact absurd (hs ▸ u.str_length) (by decide)
  | cons c chars =>
    exact isName_of_head hs (hmem c (hs ▸ List.mem_cons_self)).1 fun d hd => (hmem d hd).2

theorem isName_version (v : Nat) : IsName ("v" ++ v.repr) := by
  have hs : ("v" ++ v.repr).toList = 'v' :: v.repr.toList := by rw [String.toList_append]; rfl
  refine isName_of_head hs (by decide) fun d hd => ?_
  rw [hs] at hd
  rcases List.mem_cons.1 hd with rfl | hd
  · decide
  · exact ⟨fun h => Text.notMem_repr (by decide) v (h ▸ hd),
      fun h => Text.notMem_repr (by decide) v (h ▸ hd)⟩

theorem mem_replaceRuns {keep : Char → Bool} {mark c : Char} {inRun : Bool} {l : List Char}
    (h : c ∈ Text.replaceRuns keep mark inRun l) : keep c = true ∨ c = mark := by
  induction l generalizing inRun with
  | nil => cases h
  | cons a l ih =>
    unfold Text.replaceRuns at h
    split at h
    next ha =>
      rcases List.mem_cons.1 h with rfl | h
      · exact .inl ha
      · exact ih h
    next =>
      split at h
      · exact ih h
      · exact (List.mem_cons.1 h).elim .inr ih

/-- Whatever the file was called. -/
theorem isName_safe (name : String) : IsName (StorageKey.safe name) := by
  unfold StorageKey.safe
  simp only
  generalize (Text.splitOn '/' _).getLastD "" = base
  obtain ⟨cleaned, hcleaned⟩ : ∃ s, Text.trim (· ∈ ['.', ' '])
    (String.ofList (Text.replaceRuns StorageKey.isSafe '_' false base.toList)) = s := ⟨_, rfl⟩
  rw [hcleaned]
  split
  · decide
  next hne =>
    cases hs : cleaned.toList with
    | nil => exact absurd (String.toList_inj.1 hs) hne
    | cons c chars =>
      have htake : (Text.take 255 cleaned).toList = c :: chars.take 254 := by
        unfold Text.take
        rw [String.toList_ofList, hs]
        rfl
      have hc : c ∉ ['.', ' '] := of_decide_eq_false (Text.head_trim (by rw [hcleaned, hs]; rfl))
      refine isName_of_head htake (fun h => hc (by simp [h])) fun d hd => ?_
      have hmem : d ∈ cleaned.toList := by
        rw [htake] at hd
        rw [hs]
        exact List.take_subset 255 (c :: chars) hd
      rw [← hcleaned] at hmem
      have hmem := Text.mem_trim hmem
      rw [String.toList_ofList] at hmem
      rcases mem_replaceRuns hmem with hsafe | rfl
      · constructor <;> rintro rfl <;> exact absurd hsafe (by decide)
      · decide

def versionDir (projectId contractId : Uuid) (version : Nat) : Path :=
  [⟨"projects", by decide⟩, ⟨projectId.str, isName_str projectId⟩, ⟨"contracts", by decide⟩,
    ⟨contractId.str, isName_str contractId⟩, ⟨"v" ++ version.repr, isName_version version⟩]

theorem contractFile_eq (p c : Uuid) (v : Nat) (name : String) :
    StorageKey.contractFile p c v name =
      keyStr (versionDir p c v ++ [⟨StorageKey.safe name, isName_safe name⟩]) := by
  rw [← String.toList_inj]
  simp [StorageKey.contractFile, versionDir, keyStr_cons, pathChars, String.toList_append]

/-- The key of an uploaded file, whatever its name, is accepted and leads into the directory of its
version; and no operation on it is seen at a file of another contract or version. -/
theorem contractFiles_isolated (root : Path) (container : FileName) {p p' c c' : Uuid} {v v' : Nat}
    (name name' : String) (hne : (c, v) ≠ (c', v')) : ∃ q q',
    path? root ⟨container, StorageKey.contractFile p c v name⟩ = some q ∧
    path? root ⟨container, StorageKey.contractFile p' c' v' name'⟩ = some q' ∧
    bucketRoot root container ++ versionDir p c v <+: q ∧ Isolated root q q' := by
  refine ⟨_, _, by rw [contractFile_eq, path?_keyStr], by rw [contractFile_eq, path?_keyStr], ?_,
    isolated_of_apart ?_⟩
  · rw [← List.append_assoc]
    exact List.prefix_append _ _
  have hdir : ∀ x y : FileName, bucketRoot root container ++ (versionDir p c v ++ [x]) ≠
      bucketRoot root container ++ (versionDir p' c' v' ++ [y]) := by
    intro x y h
    have heq := List.append_cancel_left h
    simp only [versionDir, List.cons_append, List.cons.injEq, FileName.mk.injEq] at heq
    refine hne (Prod.ext (Uuid.str_inj.1 heq.2.2.2.1) (Text.repr_inj ?_))
    have hv := congrArg String.toList heq.2.2.2.2.1
    rw [String.toList_append, String.toList_append] at hv
    exact List.append_cancel_left hv
  refine ⟨fun h => hdir _ _ (h.eq_of_length (by simp [versionDir])),
    fun h => hdir _ _ (h.eq_of_length (by simp [versionDir])).symm, fun h => ?_⟩
  rw [← List.append_assoc, tmp_concat, List.append_assoc] at h
  exact hdir _ _ (h.eq_of_length (by simp [versionDir]))

/-- Two versions of one contract, both sent under a name that climbs. -/
theorem versions_isolated : ∃ q q',
    path? [⟨"data", by decide⟩]
      ⟨⟨"contracts", by decide⟩, StorageKey.contractFile 1 2 1 "../../x"⟩ = some q ∧
    path? [⟨"data", by decide⟩]
      ⟨⟨"contracts", by decide⟩, StorageKey.contractFile 1 2 2 "../../x"⟩ = some q' ∧
    bucketRoot [⟨"data", by decide⟩] ⟨"contracts", by decide⟩ ++ versionDir 1 2 1 <+: q ∧
    Isolated [⟨"data", by decide⟩] q q' :=
  contractFiles_isolated _ _ _ _ (by decide)

end LocalStorage

end Clear
