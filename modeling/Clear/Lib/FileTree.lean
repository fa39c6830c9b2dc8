import Clear.Lib.Dict
import Mathlib.Data.List.Infix

/-!
# File trees

Directories and files by their paths from the root; `closed` keeps every entry in a directory. The
operations say what they do to every path (`node_set`, `node_removeFiles`, `node_removeTree`,
`node_mkdirs`), and what a reader sees of a path depends on the entries of the path and above it
only (`read_congr`).
-/

/-- What stands at a path. -/
inductive FileNode (δ : Type) where
  | file (data : δ)
  | dir
  deriving DecidableEq

namespace FileNode

variable {δ : Type}

def isFile : FileNode δ → Bool
  | file _ => true
  | dir => false

@[simp] theorem isFile_file (data : δ) : (file data).isFile = true := rfl

@[simp] theorem isFile_dir : (dir : FileNode δ).isFile = false := rfl

end FileNode

structure FileTree (ν δ : Type) [DecidableEq ν] where
  entries : List (List ν × FileNode δ)
  nodup : (entries.map (·.1)).Nodup
  root : entries.lookup [] = some .dir
  closed : ∀ p, p ≠ [] → (entries.lookup p).isSome = true → entries.lookup p.dropLast = some .dir

namespace FileTree

variable {ν δ : Type} [DecidableEq ν] {t t' : FileTree ν δ} {p q r : List ν}

def empty : FileTree ν δ where
  entries := [([], .dir)]
  nodup := by simp
  root := by simp
  closed p hp h := by
    have hne : (p == []) = false := by simpa using hp
    simp [List.lookup_cons, hne] at h

def node (t : FileTree ν δ) (p : List ν) : Option (FileNode δ) := t.entries.lookup p

@[simp] theorem node_root : t.node [] = some .dir := t.root

theorem node_dropLast (hp : p ≠ []) (h : (t.node p).isSome = true) :
    t.node p.dropLast = some .dir := t.closed p hp h

theorem node_empty (hp : p ≠ []) : (empty : FileTree ν δ).node p = none := by
  have hne : (p == []) = false := by simpa using hp
  simp [node, empty, List.lookup_cons, hne]

theorem node_above (h : (t.node p).isSome = true) (hq : q <+: p) (hne : q ≠ p) :
    t.node q = some .dir := by
  induction p using List.reverseRecOn with
  | nil => exact absurd (List.prefix_nil.1 hq) hne
  | append_singleton p n ih =>
    have hparent := node_dropLast (by simp) h
    rw [List.dropLast_concat] at hparent
    rcases List.prefix_concat_iff.1 hq with heq | hbelow
    · exact absurd heq hne
    · by_cases heq : q = p
      · rw [heq, hparent]
      · exact ih (by rw [hparent]; rfl) hbelow heq

/-! ## Changing one entry -/

/-- An entry is made in a directory, or written over a file. -/
def set (t : FileTree ν δ) (p : List ν) (n : FileNode δ)
    (h : p ≠ [] ∧ t.node p.dropLast = some .dir ∧ t.node p ≠ some .dir) : FileTree ν δ where
  entries := Dict.assign t.entries p n
  nodup := Dict.nodup_assign t.nodup
  root := by
    rw [Dict.lookup_assign_ne h.1.symm]
    exact t.root
  closed q hq hsome := by
    have hparent : q.dropLast ≠ p := by
      intro heq
      by_cases hqp : q = p
      · have hlength := congrArg List.length heq
        have hpos := List.length_pos_iff.2 hq
        rw [List.length_dropLast, hqp] at hlength
        rw [hqp] at hpos
        omega
      · rw [Dict.lookup_assign_ne hqp] at hsome
        exact h.2.2 (heq ▸ t.closed q hq hsome)
    rw [Dict.lookup_assign_ne hparent]
    by_cases hqp : q = p
    · rw [hqp]
      exact h.2.1
    · rw [Dict.lookup_assign_ne hqp] at hsome
      exact t.closed q hq hsome

theorem node_set {n : FileNode δ} (h) : (t.set p n h).node q = if q = p then some n else t.node q := by
  unfold node set
  split
  next heq => rw [heq, Dict.lookup_assign_self]
  next hne => rw [Dict.lookup_assign_ne hne]

section Write

variable [DecidableEq δ]

/-- Open for writing, and write: nothing happens if `p` is a directory or is in none. -/
def write (t : FileTree ν δ) (p : List ν) (data : δ) : Option (FileTree ν δ) :=
  if h : p ≠ [] ∧ t.node p.dropLast = some .dir ∧ t.node p ≠ some .dir then
    some (t.set p (.file data) h)
  else none

theorem write_eq_some {data : δ} (h : t.write p data = some t') : p ≠ [] ∧
    t.node p.dropLast = some .dir ∧ t.node p ≠ some .dir ∧
      ∀ q, t'.node q = if q = p then some (.file data) else t.node q := by
  unfold write at h
  split at h
  next hp => exact ⟨hp.1, hp.2.1, hp.2.2, fun q => by rw [← Option.some_inj.1 h, node_set]⟩
  next => cases h

theorem exists_write (data : δ) (hp : p ≠ []) (hparent : t.node p.dropLast = some .dir)
    (hdir : t.node p ≠ some .dir) : ∃ t', t.write p data = some t' :=
  ⟨_, dif_pos ⟨hp, hparent, hdir⟩⟩

end Write

/-! ## Removing entries -/

def unlessNamed (named : List ν → Bool) (p : List ν) (n : FileNode δ) : Option (FileNode δ) :=
  if n.isFile && named p then none else some n

def removeFiles (t : FileTree ν δ) (named : List ν → Bool) : FileTree ν δ where
  entries := t.entries.filterMap fun e => (unlessNamed named e.1 e.2).map (e.1, ·)
  nodup := Dict.nodup_filterMap_entries _ t.nodup
  root := by
    rw [Dict.lookup_filterMap_entries (unlessNamed named) t.nodup, t.root]
    rfl
  closed p hp h := by
    rw [Dict.lookup_filterMap_entries (unlessNamed named) t.nodup] at h ⊢
    rw [t.closed p hp (Option.isSome_of_isSome_bind h)]
    rfl

theorem node_removeFiles (named : List ν → Bool) :
    (t.removeFiles named).node p = (t.node p).bind (unlessNamed named p) :=
  Dict.lookup_filterMap_entries (unlessNamed named) t.nodup p

/-- An entry that is kept where a tree is removed; the root stays. -/
def unlessBelow (top p : List ν) (n : FileNode δ) : Option (FileNode δ) :=
  if p ≠ [] ∧ top <+: p then none else some n

def removeTree (t : FileTree ν δ) (top : List ν) : FileTree ν δ where
  entries := t.entries.filterMap fun e => (unlessBelow top e.1 e.2).map (e.1, ·)
  nodup := Dict.nodup_filterMap_entries _ t.nodup
  root := by
    rw [Dict.lookup_filterMap_entries (unlessBelow top) t.nodup, t.root]
    rfl
  closed p hp h := by
    rw [Dict.lookup_filterMap_entries (unlessBelow top) t.nodup] at h ⊢
    rw [t.closed p hp (Option.isSome_of_isSome_bind h), Option.bind_some]
    refine if_neg fun hbelow => ?_
    obtain ⟨n, -, hn⟩ := Option.bind_eq_some_iff.1 (Option.some_get h).symm
    rw [unlessBelow, if_pos ⟨hp, hbelow.2.trans (List.dropLast_prefix p)⟩] at hn
    cases hn

theorem node_removeTree (top : List ν) :
    (t.removeTree top).node p = (t.node p).bind (unlessBelow top p) :=
  Dict.lookup_filterMap_entries (unlessBelow top) t.nodup p

/-! ## Making directories -/

/-- The directories from `done` down are made, as far as they do not exist; a file on the way is an
error. -/
def mkdirsFrom [DecidableEq δ] (t : FileTree ν δ) (done : List ν) :
    List ν → Option (FileTree ν δ)
  | [] => some t
  | n :: rest =>
    if t.node (done ++ [n]) = some .dir then mkdirsFrom t (done ++ [n]) rest
    else if h : done ++ [n] ≠ [] ∧ t.node (done ++ [n]).dropLast = some .dir ∧
        t.node (done ++ [n]) ≠ some .dir then
      if (t.node (done ++ [n])).isSome then none
      else mkdirsFrom (t.set (done ++ [n]) .dir h) (done ++ [n]) rest
    else none

/-- `mkdir(parents=True, exist_ok=True)`. -/
def mkdirs [DecidableEq δ] (t : FileTree ν δ) (p : List ν) : Option (FileTree ν δ) :=
  t.mkdirsFrom [] p

section Mkdirs

variable [DecidableEq δ]

theorem node_of_mkdirsFrom {done todo : List ν} (hdone : t.node done = some .dir)
    (h : t.mkdirsFrom done todo = some t') (q : List ν) :
    t'.node q = if q <+: done ++ todo then some .dir else t.node q := by
  induction todo generalizing t done with
  | nil =>
    rw [List.append_nil, ← Option.some_inj.1 h]
    split
    next hq =>
      by_cases heq : q = done
      · rw [heq, hdone]
      · exact node_above (by rw [hdone]; rfl) hq heq
    next => rfl
  | cons n rest ih =>
    have hassoc : done ++ n :: rest = done ++ [n] ++ rest := by simp
    unfold mkdirsFrom at h
    rw [hassoc]
    split at h
    next hdir => exact ih hdir h
    next =>
      split at h
      next hnew =>
        split at h
        next => cases h
        next =>
          rw [ih (by rw [node_set, if_pos rfl]) h, node_set]
          split
          next => rfl
          next hq =>
            have hne : q ≠ done ++ [n] := fun heq => hq (heq ▸ List.prefix_append _ _)
            rw [if_neg hne]
      next => cases h

theorem ne_file_of_mkdirsFrom {done todo : List ν} (hdone : t.node done = some .dir)
    (h : t.mkdirsFrom done todo = some t') (hq : q <+: done ++ todo) (data : δ) :
    t.node q ≠ some (.file data) := by
  induction todo generalizing t done with
  | nil =>
    rw [List.append_nil] at hq
    by_cases heq : q = done
    · simp [heq, hdone]
    · rw [node_above (by rw [hdone]; rfl) hq heq]
      simp
  | cons n rest ih =>
    have hassoc : done ++ n :: rest = done ++ [n] ++ rest := by simp
    rw [hassoc] at hq
    unfold mkdirsFrom at h
    split at h
    next hdir => exact ih hdir h hq
    next =>
      split at h
      next =>
        split at h
        next => cases h
        next hnone =>
          have hset := ih (by rw [node_set, if_pos rfl]) h hq
          rw [node_set] at hset
          by_cases heq : q = done ++ [n]
          · rw [heq]
            intro hfile
            exact hnone (by rw [hfile]; rfl)
          · rwa [if_neg heq] at hset
      next => cases h

theorem exists_mkdirsFrom {done todo : List ν} (hdone : t.node done = some .dir)
    (hfree : ∀ q, q <+: done ++ todo → ∀ data, t.node q ≠ some (.file data)) :
    ∃ t', t.mkdirsFrom done todo = some t' := by
  induction todo generalizing t done with
  | nil => exact ⟨t, rfl⟩
  | cons n rest ih =>
    have hassoc : done ++ n :: rest = done ++ [n] ++ rest := by simp
    rw [hassoc] at hfree
    unfold mkdirsFrom
    split
    next hdir => exact ih hdir hfree
    next hnodir =>
      have hnone : t.node (done ++ [n]) = none := by
        cases hnode : t.node (done ++ [n]) with
        | none => rfl
        | some found =>
          cases found with
          | dir => exact absurd hnode hnodir
          | file data => exact absurd hnode (hfree _ (List.prefix_append _ _) data)
      have hnew : done ++ [n] ≠ [] ∧ t.node (done ++ [n]).dropLast = some .dir ∧
          t.node (done ++ [n]) ≠ some .dir :=
        ⟨by simp, by rw [List.dropLast_concat, hdone], hnodir⟩
      rw [dif_pos hnew, if_neg (by simp [hnone])]
      refine ih (by rw [node_set, if_pos rfl]) fun q hq data => ?_
      rw [node_set]
      split
      next => simp
      next => exact hfree q hq data

/-- The directories down to a path are made, and nothing else is changed. -/
theorem node_mkdirs (h : t.mkdirs p = some t') (q : List ν) :
    t'.node q = if q <+: p then some .dir else t.node q := by
  have hnode := node_of_mkdirsFrom node_root h q
  rwa [List.nil_append] at hnode

theorem ne_file_of_mkdirs (h : t.mkdirs p = some t') (hq : q <+: p) (data : δ) :
    t.node q ≠ some (.file data) :=
  ne_file_of_mkdirsFrom node_root h (by rwa [List.nil_append]) data

theorem exists_mkdirs (hfree : ∀ q, q <+: p → ∀ data, t.node q ≠ some (.file data)) :
    ∃ t', t.mkdirs p = some t' :=
  exists_mkdirsFrom node_root (by rwa [List.nil_append])

end Mkdirs

/-! ## Reading -/

inductive ReadError where
  | notFound | notDirectory | isDirectory
  deriving DecidableEq, Repr

def read (t : FileTree ν δ) (p : List ν) : Except ReadError δ :=
  match t.node p with
  | some (.file data) => .ok data
  | some .dir => .error .isDirectory
  | none =>
    if p.inits.any fun q => (t.node q).any FileNode.isFile then .error .notDirectory
    else .error .notFound

/-- What is read of a path depends on its entry, and on which paths above it are files. -/
theorem read_congr (hnode : t'.node p = t.node p)
    (habove : ∀ q, q <+: p → (t'.node q).any FileNode.isFile = (t.node q).any FileNode.isFile) :
    t'.read p = t.read p := by
  have hany : (p.inits.any fun q => (t'.node q).any FileNode.isFile) =
      p.inits.any fun q => (t.node q).any FileNode.isFile := by
    rw [Bool.eq_iff_iff, List.any_eq_true, List.any_eq_true]
    refine exists_congr fun q => and_congr_right fun hq => ?_
    rw [habove q ((List.mem_inits _ _).1 hq)]
  unfold read
  rw [hnode, hany]

theorem read_below_file (hnone : t.node p = none) {data : δ} (hq : q <+: p)
    (hfile : t.node q = some (.file data)) : t.read p = .error .notDirectory := by
  unfold read
  rw [hnone]
  refine if_pos (List.any_eq_true.2 ⟨q, (List.mem_inits _ _).2 hq, ?_⟩)
  rw [hfile]
  rfl

theorem read_of_free (hnone : t.node p = none)
    (hfree : ∀ q, q <+: p → ∀ data, t.node q ≠ some (.file data)) :
    t.read p = .error .notFound := by
  unfold read
  rw [hnone]
  refine if_neg fun h => ?_
  obtain ⟨q, hq, hfile⟩ := List.any_eq_true.1 h
  cases hnode : t.node q with
  | none => simp [hnode] at hfile
  | some found =>
    cases found with
    | dir => simp [hnode] at hfile
    | file data => exact hfree q ((List.mem_inits _ _).1 hq) data hnode

end FileTree
