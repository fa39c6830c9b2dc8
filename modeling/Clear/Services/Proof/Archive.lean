import Clear.Services.Archive
import Mathlib.Algebra.Order.BigOperators.Group.List
import Mathlib.Algebra.Order.Group.Nat

/-!
# What an archive yields

Every entry of a readable archive that is neither a directory nor debris is filed once, as a member
or as ignored, and members have distinct bare names (`extract_lossless`). An archive over a limit is
refused before anything is decompressed exactly if the integrity test finds nothing to decompress
(`refused_unread_iff`).
-/

namespace Clear

namespace ArchiveService

variable {name path stem suffix : String} {taken : List String} {info : ZipInfo}
  {archive : List ZipInfo} {limits : ArchiveLimits} {content : Bytes}
  {zipFile : Bytes → Except ZipError (List ZipInfo)}

/-! ## Names -/

def Bare (name : String) : Prop := '/' ∉ name.toList ∧ '\\' ∉ name.toList

def written (name : String) : Option String := (Text.rsplit1 '.' name).map (·.2)

/-- The names that an entry may be given. -/
inductive NameOf (path : String) : String → Prop
  | base : NameOf path (safeMemberName path)
  | inFolder : NameOf path (folderOf path ++ " - " ++ safeMemberName path)
  | counted (k : Nat) : NameOf path
      (numbered (stemAndSuffix (safeMemberName path)).1 (stemAndSuffix (safeMemberName path)).2 k)

theorem freeCounter_spec (taken : List String) (stem suffix : String) (counter : Nat) :
    counter ≤ freeCounter taken stem suffix counter ∧
      numbered stem suffix (freeCounter taken stem suffix counter) ∉ taken ∧
      ∀ k, counter ≤ k → k < freeCounter taken stem suffix counter →
        numbered stem suffix k ∈ taken := by
  fun_induction freeCounter taken stem suffix counter with
  | case1 counter h ih =>
    obtain ⟨hle, hfree, hall⟩ := ih
    refine ⟨by omega, hfree, fun k hk hlt => ?_⟩
    by_cases heq : k = counter
    · rw [heq]
      exact h
    · exact hall k (by omega) hlt
  | case2 counter h => exact ⟨Nat.le_refl _, h, fun k hk hlt => by omega⟩

/-- What `_disambiguate` answers: a name that is not taken, and another one than it was given only
if that is taken. -/
theorem disambiguate_cases (name path : String) (taken : List String) :
    disambiguate name path taken ∉ taken ∧
      (disambiguate name path taken = name ∨ name ∈ taken ∧
        (disambiguate name path taken = folderOf path ++ " - " ++ name ∨
          ∃ k, disambiguate name path taken =
            numbered (stemAndSuffix name).1 (stemAndSuffix name).2 k)) := by
  have hfree := (freeCounter_spec taken (stemAndSuffix name).1 (stemAndSuffix name).2 2).2.1
  unfold disambiguate
  dsimp only
  generalize freeCounter taken (stemAndSuffix name).1 (stemAndSuffix name).2 2 = k at hfree ⊢
  by_cases hname : name ∈ taken
  · rw [if_neg (not_not.2 hname)]
    by_cases hfolder : folderOf path = ""
    · rw [if_pos hfolder, if_neg (not_not.2 hname)]
      exact ⟨hfree, .inr ⟨hname, .inr ⟨k, rfl⟩⟩⟩
    · rw [if_neg hfolder]
      by_cases hcandidate : folderOf path ++ " - " ++ name ∈ taken
      · rw [if_neg (not_not.2 hcandidate)]
        exact ⟨hfree, .inr ⟨hname, .inr ⟨k, rfl⟩⟩⟩
      · rw [if_pos hcandidate]
        exact ⟨hcandidate, .inr ⟨hname, .inl rfl⟩⟩
  · rw [if_pos hname]
    exact ⟨hname, .inl rfl⟩

theorem disambiguate_nameOf (path : String) (taken : List String) :
    NameOf path (disambiguate (safeMemberName path) path taken) := by
  rcases (disambiguate_cases (safeMemberName path) path taken).2 with h | ⟨-, h | ⟨k, h⟩⟩
  · rw [h]
    exact .base
  · rw [h]
    exact .inFolder
  · rw [h]
    exact .counted k

theorem backslash_notMem_slashed (name : String) : '\\' ∉ (slashed name).toList := by
  unfold slashed
  rw [String.toList_ofList]
  intro h
  obtain ⟨c, -, hc⟩ := List.mem_map.1 h
  split at hc
  next => cases hc
  next hne => exact hne hc

theorem bare_safeMemberName (name : String) : Bare (safeMemberName name) := by
  have hback := backslash_notMem_slashed name
  unfold safeMemberName
  cases h : Text.rsplit1 '/' (slashed name) with
  | none =>
    refine ⟨fun hin => ?_, hback⟩
    unfold Text.rsplit1 at h
    dsimp only at h
    rw [if_pos (List.mem_reverse.2 hin)] at h
    cases h
  | some parts =>
    obtain ⟨hname, hslash⟩ := Text.rsplit1_eq_some h
    refine ⟨hslash, fun hin => hback ?_⟩
    rw [hname, String.toList_append, String.toList_ofList]
    exact List.mem_append_right _ (List.mem_cons_of_mem _ hin)

theorem bare_folderOf (path : String) : Bare (folderOf path) := by
  have hparts : ∀ part ∈ (Text.splitOn '/' (Text.trim (· = '/') (slashed path))).dropLast,
      Bare part := by
    intro part hpart
    obtain ⟨hslash, hall⟩ := Text.mem_partsFrom (List.dropLast_subset _ hpart) (by simp)
    refine ⟨hslash, fun hin => backslash_notMem_slashed path ?_⟩
    exact Text.mem_trim ((hall _ hin).resolve_left (by simp))
  unfold folderOf
  generalize (Text.splitOn '/' (Text.trim (· = '/') (slashed path))).dropLast = parts at hparts
  have hlast : Bare (parts.getLastD "") := by
    cases hcase : parts.getLast? with
    | none =>
      rw [List.getLastD_eq_getLast?, hcase]
      exact ⟨by simp, by simp⟩
    | some part =>
      rw [List.getLastD_eq_getLast?, hcase]
      exact hparts part (List.mem_of_getLast? hcase)
  exact ⟨fun hin => hlast.1 (Text.mem_trim hin), fun hin => hlast.2 (Text.mem_trim hin)⟩

theorem Bare.append {a b : String} (ha : Bare a) (hb : Bare b) : Bare (a ++ b) := by
  unfold Bare
  rw [String.toList_append, List.mem_append, List.mem_append]
  exact ⟨fun h => h.elim ha.1 hb.1, fun h => h.elim ha.2 hb.2⟩

def Supported (name : String) : Prop := (FileType.ofValue? (extensionOf name)).isSome

theorem Supported.parts (h : Supported name) : ∃ stem extension,
    name = stem ++ String.ofList ('.' :: extension.toList) ∧ '.' ∉ extension.toList ∧
      written name = some extension ∧
      stemAndSuffix name =
        (if stem = "" then name else stem, String.ofList ('.' :: extension.toList)) := by
  unfold Supported extensionOf at h
  cases hsplit : Text.rsplit1 '.' name with
  | none =>
    rw [hsplit] at h
    exact absurd h (by decide)
  | some parts =>
    obtain ⟨stem, extension⟩ := parts
    rw [hsplit] at h
    obtain ⟨hname, hdot⟩ := Text.rsplit1_eq_some hsplit
    have hne : extension ≠ "" := fun hempty => by
      rw [hempty] at h
      exact absurd h (show ¬ (FileType.ofValue? (Text.lower "")).isSome by decide)
    refine ⟨stem, extension, hname, hdot, ?_, ?_⟩
    · unfold written
      rw [hsplit]
      rfl
    · unfold stemAndSuffix
      rw [hsplit]
      dsimp only [Option.getD_some]
      rw [if_neg hne]

theorem written_append {extension : String} (h : '.' ∉ extension.toList) (stem : String) :
    written (stem ++ String.ofList ('.' :: extension.toList)) = some extension := by
  unfold written
  rw [Text.rsplit1_append h, String.ofList_toList]
  rfl

theorem written_disambiguate (path : String) (h : ∀ t ∈ taken, Supported t) :
    written (disambiguate name path taken) = written name := by
  rcases (disambiguate_cases name path taken).2 with heq | ⟨hin, heq | ⟨k, heq⟩⟩
  · rw [heq]
  · obtain ⟨stem, extension, hname, hdot, hwritten, -⟩ := (h name hin).parts
    rw [heq, hwritten, hname, ← String.append_assoc]
    exact written_append hdot _
  · obtain ⟨stem, extension, hname, hdot, hwritten, hparts⟩ := (h name hin).parts
    rw [heq, hwritten, hparts]
    have hnumbered : ∀ stem : String,
        numbered stem (String.ofList ('.' :: extension.toList)) k =
          (stem ++ String.ofList (' ' :: '(' :: k.repr.toList ++ [')'])) ++
            String.ofList ('.' :: extension.toList) := by
      intro stem
      unfold numbered
      rw [String.toList_ofList, String.append_assoc, ← String.ofList_append]
      simp
    rw [hnumbered]
    exact written_append hdot _

theorem bare_numbered (hstem : Bare stem) (hsuffix : Bare suffix) (k : Nat) :
    Bare (numbered stem suffix k) := by
  have hchar : ∀ c, c.isDigit = false → c ∉ [' ', '(', ')'] → c ∉ stem.toList →
      c ∉ suffix.toList → c ∉ (numbered stem suffix k).toList := by
    intro c hdigit hmark hin hin'
    have hrepr := Text.notMem_repr hdigit k
    unfold numbered
    simp only [String.toList_append, String.toList_ofList, List.cons_append, List.mem_append,
      List.mem_cons, not_or]
    simp only [List.mem_cons, not_or] at hmark
    exact ⟨hin, hmark.1, hmark.2.1, hrepr, hmark.2.2.1, hin'⟩
  exact ⟨hchar _ (by decide) (by decide) hstem.1 hsuffix.1,
    hchar _ (by decide) (by decide) hstem.2 hsuffix.2⟩

theorem bare_disambiguate (path : String) (h : ∀ t ∈ taken, Supported t) :
    Bare (disambiguate (safeMemberName path) path taken) := by
  have hbase := bare_safeMemberName path
  rcases (disambiguate_cases (safeMemberName path) path taken).2 with heq | ⟨hin, heq | ⟨k, heq⟩⟩
  · rw [heq]
    exact hbase
  · rw [heq]
    exact ((bare_folderOf path).append ⟨by decide, by decide⟩).append hbase
  · obtain ⟨stem, extension, hname, -, -, hparts⟩ := (h _ hin).parts
    have hboth : Bare stem ∧ Bare (String.ofList ('.' :: extension.toList)) := by
      have hchars := congrArg String.toList hname
      rw [String.toList_append] at hchars
      unfold Bare at hbase ⊢
      rw [hchars, List.mem_append, List.mem_append, not_or, not_or] at hbase
      exact ⟨⟨hbase.1.1, hbase.2.1⟩, hbase.1.2, hbase.2.2⟩
    rw [heq, hparts]
    refine bare_numbered ?_ hboth.2 k
    dsimp only
    split
    · exact hbase
    · exact hboth.1

/-! ## Filing -/

inductive Filed : List ZipInfo → List ArchiveMember → List (String × String) → Prop
  | nil : Filed [] [] []
  | member {e : ZipInfo} {m : ArchiveMember} {entries members ignored}
      (hname : NameOf e.filename m.fileName)
      (hextension : written m.fileName = written (safeMemberName e.filename))
      (hcontent : e.read = .ok m.content) (hrest : Filed entries members ignored) :
      Filed (e :: entries) (m :: members) ignored
  | ignored {e : ZipInfo} {name reason : String} {entries members ignored}
      (hname : NameOf e.filename name) (hrest : Filed entries members ignored) :
      Filed (e :: entries) members ((name, reason) :: ignored)

/-- The entry can be read, or is refused in a way that the library documents. -/
def Benign (e : ZipInfo) : Prop := ∀ error, e.read = .error error → error.caught.isSome

structure Held (u : Unpacking) : Prop where
  taken : u.taken = u.contents.members.map (·.fileName)
  nodup : u.taken.Nodup
  bare : ∀ name ∈ u.taken, Bare name
  supported : ∀ name ∈ u.taken, Supported name

theorem Held.ignore {u : Unpacking} (h : Held u) (name reason : String) :
    Held (u.ignore name reason) := ⟨h.taken, h.nodup, h.bare, h.supported⟩

theorem Held.keep {u : Unpacking} {m : ArchiveMember} (h : Held u) (hfree : m.fileName ∉ u.taken)
    (hbare : Bare m.fileName) (hsupported : Supported m.fileName) : Held (u.keep m) := by
  refine ⟨?_, ?_, fun name hname => ?_, fun name hname => ?_⟩
  · show u.taken ++ [m.fileName] = (u.contents.members ++ [m]).map (·.fileName)
    rw [h.taken, List.map_append, List.map_singleton]
  · show (u.taken ++ [m.fileName]).Nodup
    rw [← List.concat_eq_append]
    exact h.nodup.concat hfree
  · rcases List.mem_append.1 hname with hin | hin
    · exact h.bare name hin
    · rw [List.mem_singleton.1 hin]
      exact hbare
  · rcases List.mem_append.1 hname with hin | hin
    · exact h.supported name hin
    · rw [List.mem_singleton.1 hin]
      exact hsupported

/-- What a round does: nothing to debris, and otherwise one record. -/
theorem unpackOne_cases {u : Unpacking} (hbenign : Benign info) (h : Held u) :
    (isJunk info.filename = true ∧ (unpackOne u info).1 = .ok u) ∨
      (isJunk info.filename = false ∧
        ((∃ name reason, NameOf info.filename name ∧
            (unpackOne u info).1 = .ok (u.ignore name reason)) ∨
          ∃ m : ArchiveMember, NameOf info.filename m.fileName ∧
            written m.fileName = written (safeMemberName info.filename) ∧
            info.read = .ok m.content ∧ Held (u.keep m) ∧
            (unpackOne u info).1 = .ok (u.keep m))) := by
  unfold unpackOne
  cases hjunk : isJunk info.filename with
  | true => exact .inl ⟨rfl, rfl⟩
  | false =>
    refine .inr ⟨rfl, ?_⟩
    have hname := disambiguate_nameOf info.filename u.taken
    have hfree := (disambiguate_cases (safeMemberName info.filename) info.filename u.taken).1
    have hwritten : written (disambiguate (safeMemberName info.filename) info.filename u.taken) =
        written (safeMemberName info.filename) := written_disambiguate info.filename h.supported
    have hbare := bare_disambiguate info.filename h.supported
    rw [if_neg Bool.false_ne_true]
    dsimp only
    generalize disambiguate (safeMemberName info.filename) info.filename u.taken = name at *
    by_cases hzip : extensionOf name = "zip"
    · rw [if_pos hzip]
      exact .inl ⟨name, _, hname, rfl⟩
    · rw [if_neg hzip]
      cases htype : FileType.ofValue? (extensionOf name) with
      | none => exact .inl ⟨name, _, hname, rfl⟩
      | some fileType =>
        dsimp only
        unfold readMember
        cases hread : info.read with
        | error error =>
          obtain ⟨text, htext⟩ := Option.isSome_iff_exists.1 (hbenign error hread)
          dsimp only
          rw [htext]
          exact .inl ⟨name, _, hname, rfl⟩
        | ok content =>
          dsimp only
          cases content with
          | nil => exact .inl ⟨name, _, hname, rfl⟩
          | cons byte content =>
            have hsupported : Supported name := by
              unfold Supported
              rw [htype]
              rfl
            exact .inr ⟨{ fileName := name, content := byte :: content, fileType }, hname, hwritten,
              rfl, h.keep hfree hbare hsupported, rfl⟩

theorem unpack_cons {u u' : Unpacking} {entries : List ZipInfo}
    (h : (unpackOne u info).1 = .ok u') :
    (unpack u (info :: entries)).1 = (unpack u' entries).1 := by
  rw [unpack]
  dsimp only
  rw [h]

theorem unpack_filed {u : Unpacking} {entries : List ZipInfo} (hbenign : ∀ e ∈ entries, Benign e)
    (h : Held u) : ∃ members ignored u', Held u' ∧ (unpack u entries).1 = .ok u'.contents ∧
      u'.contents.members = u.contents.members ++ members ∧
      u'.contents.ignored = u.contents.ignored ++ ignored ∧
      Filed (entries.filter fun e => !isJunk e.filename) members ignored := by
  induction entries generalizing u with
  | nil => exact ⟨[], [], u, h, rfl, by simp, by simp, .nil⟩
  | cons e entries ih =>
    have hrest := fun e' he' => hbenign e' (List.mem_cons_of_mem e he')
    rcases unpackOne_cases (hbenign e List.mem_cons_self) h with ⟨hjunk, hone⟩ | ⟨hjunk, hone⟩
    · obtain ⟨members, ignored, u', hheld, hok, hmembers, hignored, hfiled⟩ := ih hrest h
      rw [unpack_cons hone, List.filter_cons_of_neg (by simp [hjunk])]
      exact ⟨members, ignored, u', hheld, hok, hmembers, hignored, hfiled⟩
    · rw [List.filter_cons_of_pos (by simp [hjunk])]
      rcases hone with ⟨name, reason, hname, hone⟩ | ⟨m, hname, hwritten, hread, hheld, hone⟩
      · obtain ⟨members, ignored, u', hheld, hok, hmembers, hignored, hfiled⟩ :=
          ih hrest (h.ignore name reason)
        rw [unpack_cons hone]
        refine ⟨members, (name, reason) :: ignored, u', hheld, hok, hmembers, ?_,
          .ignored hname hfiled⟩
        rw [hignored]
        exact List.append_assoc _ _ _
      · obtain ⟨members, ignored, u', hheld', hok, hmembers, hignored, hfiled⟩ := ih hrest hheld
        rw [unpack_cons hone]
        refine ⟨m :: members, ignored, u', hheld', hok, ?_, hignored,
          .member hname hwritten hread hfiled⟩
        rw [hmembers]
        exact List.append_assoc _ _ _

/-! ## Limits -/

def Exceeds (limits : ArchiveLimits) (archive : List ZipInfo) : Prop :=
  limits.maxArchiveMembers < (entries archive).length ∨
    (∃ e ∈ entries archive, limits.maxTotal < e.fileSize) ∨ limits.maxTotal < declared archive

theorem refusal_cases (limits : ArchiveLimits) (archiveName : String) (archive : List ZipInfo) :
    (¬ Exceeds limits archive ∧ refusal limits archiveName archive = none) ∨
      (Exceeds limits archive ∧ ∃ e, refusal limits archiveName archive = some e ∧
        e.exception = "ArchiveError") := by
  unfold refusal
  by_cases hcount : limits.maxArchiveMembers < (entries archive).length
  · rw [if_pos hcount]
    exact .inr ⟨.inl hcount, _, rfl, rfl⟩
  · rw [if_neg hcount]
    by_cases htotal : limits.maxTotal < declared archive
    · rw [if_pos htotal]
      exact .inr ⟨.inr (.inr htotal), _, rfl, rfl⟩
    · rw [if_neg htotal]
      refine .inl ⟨fun h => ?_, rfl⟩
      rcases h with h | ⟨e, he, hsize⟩ | h
      · exact hcount h
      · have hle : e.fileSize ≤ declared archive :=
          List.single_le_sum (by simp) _ (List.mem_map_of_mem he)
        exact htotal (Nat.lt_of_lt_of_le hsize hle)
      · exact htotal h

/-- The archive passes its test, and each entry can be read or is refused in a documented way. -/
structure Readable (archive : List ZipInfo) : Prop where
  test : (ZipFile.testzip archive).1 = .ok none
  benign : ∀ e ∈ archive, Benign e

/-- A readable archive within the limits is unpacked without loss: each entry that is neither a
directory nor debris is filed once, members have distinct bare names with the extension of their
entry, and the loop that looks for a free name finds the first. -/
theorem extract_lossless (archiveName : String) (hopen : zipFile content = .ok archive)
    (hreadable : Readable archive) (hlimits : ¬ Exceeds limits archive) :
    (∃ contents, (extract limits zipFile content archiveName).1 = .ok contents ∧
      Filed ((entries archive).filter fun e => !isJunk e.filename) contents.members
        contents.ignored ∧
      (contents.members.map (·.fileName)).Nodup ∧ ∀ m ∈ contents.members, Bare m.fileName) ∧
    ∀ taken stem suffix, ∃ n, freeCounter taken stem suffix 2 = n ∧ 2 ≤ n ∧
      numbered stem suffix n ∉ taken ∧
      ∀ k, 2 ≤ k → k < n → numbered stem suffix k ∈ taken := by
  constructor
  · obtain ⟨members, ignored, u, hheld, hok, hmembers, hignored, hfiled⟩ :=
      unpack_filed (u := {})
        (fun e (he : e ∈ entries archive) => hreadable.benign e (List.mem_of_mem_filter he))
        ⟨rfl, List.nodup_nil, by simp, by simp⟩
    obtain rfl : members = u.contents.members := by simpa using hmembers.symm
    obtain rfl : ignored = u.contents.ignored := by simpa using hignored.symm
    refine ⟨u.contents, ?_, hfiled, hheld.taken ▸ hheld.nodup, fun m hm => ?_⟩
    · unfold extract
      rw [hopen]
      dsimp only
      rw [hreadable.test]
      dsimp only
      rcases refusal_cases limits archiveName archive with ⟨-, hnone⟩ | ⟨hover, -⟩
      · rw [hnone]
        exact hok
      · exact absurd hover hlimits
    · exact hheld.bare _ (hheld.taken ▸ List.mem_map_of_mem hm)
  · intro taken stem suffix
    obtain ⟨hle, hfree, hall⟩ := freeCounter_spec taken stem suffix 2
    exact ⟨_, rfl, hle, hfree, hall⟩

namespace Sample

def reader (archive : List ZipInfo) (_ : Bytes) : Except ZipError (List ZipInfo) := .ok archive

/-- An archive that files one name for two counterparties, and has notes beside. -/
def vendors : List ZipInfo :=
  [{ filename := "vendor-a/NDA.pdf", fileSize := 1, stream := [37] },
    { filename := "vendor-b/NDA.pdf", fileSize := 1, stream := [38] },
    { filename := "notes.txt", fileSize := 1, stream := [39] }]

end Sample

theorem extract_lossless_vendors : ∃ contents,
    (extract {} (Sample.reader Sample.vendors) [80, 75] "vendors.zip").1 = .ok contents ∧
      Filed Sample.vendors contents.members contents.ignored ∧
      (contents.members.map (·.fileName)).Nodup := by
  have hread : ∀ e ∈ Sample.vendors, ∃ bytes, e.read = .ok bytes := by
    intro e he
    simp only [Sample.vendors, List.mem_cons, List.not_mem_nil, or_false] at he
    rcases he with rfl | rfl | rfl <;> exact ⟨_, rfl⟩
  have hreadable : Readable Sample.vendors := by
    refine ⟨by decide +kernel, fun e he error herror => ?_⟩
    obtain ⟨bytes, hok⟩ := hread e he
    rw [hok] at herror
    cases herror
  have hopen : Sample.reader Sample.vendors [80, 75] = .ok Sample.vendors := rfl
  have hlimits : ¬ Exceeds {} Sample.vendors := by
    unfold Exceeds
    decide +kernel
  obtain ⟨contents, hok, hfiled, hnodup, -⟩ :=
    (extract_lossless "vendors.zip" hopen hreadable hlimits).1
  have hwanted : (entries Sample.vendors).filter (fun e => !isJunk e.filename) =
      Sample.vendors := by
    decide +kernel
  rw [hwanted] at hfiled
  exact ⟨contents, hok, hfiled, hnodup⟩

/-! ## The integrity test -/

inductive Quiet : List ZipInfo → Prop
  | nil : Quiet []
  | empty {e : ZipInfo} {entries} (hread : e.read = .ok []) (hrest : Quiet entries) :
      Quiet (e :: entries)
  | corrupt {e : ZipInfo} {text : String} {entries} (hread : e.read = .error (.badZipFile text))
      (hnone : e.decompressed = []) : Quiet (e :: entries)

theorem decompressed_of_read {bytes : Bytes} (h : info.read = .ok bytes) :
    info.decompressed = bytes := by
  unfold ZipInfo.read at h
  unfold ZipInfo.decompressed
  cases hrefused : info.refused with
  | some error =>
    rw [hrefused] at h
    cases h
  | none =>
    rw [hrefused] at h
    cases hfailure : info.failure with
    | some error =>
      rw [hfailure] at h
      cases h
    | none =>
      rw [hfailure] at h
      cases h
      rfl

theorem trace_eq_nil_iff : info.trace = [] ↔ info.decompressed = [] := by
  unfold ZipInfo.trace
  split <;> simp_all

theorem quiet_iff (archive : List ZipInfo) (entries : List ZipInfo) :
    ((∃ bad, (ZipFile.testFrom archive entries).1 = .ok bad) ∧
        (ZipFile.testFrom archive entries).2 = []) ↔
      Quiet (entries.map (ZipFile.opened archive)) := by
  induction entries with
  | nil => exact ⟨fun _ => .nil, fun _ => ⟨⟨none, rfl⟩, rfl⟩⟩
  | cons e entries ih =>
    rw [List.map_cons, ZipFile.testFrom]
    dsimp only
    generalize ZipFile.opened archive e = tested
    cases hread : tested.read with
    | ok bytes =>
      have hbytes := decompressed_of_read hread
      dsimp only
      rw [List.append_eq_nil_iff, trace_eq_nil_iff, hbytes]
      constructor
      · intro ⟨hok, hnone, hrest⟩
        exact .empty (hnone ▸ hread) (ih.1 ⟨hok, hrest⟩)
      · intro h
        cases h with
        | empty hempty hrest =>
          obtain ⟨hok, htrace⟩ := ih.2 hrest
          rw [hread] at hempty
          exact ⟨hok, Except.ok.inj hempty, htrace⟩
        | corrupt hcorrupt =>
          rw [hread] at hcorrupt
          cases hcorrupt
    | error error =>
      have hcorrupt : Quiet (tested :: entries.map (ZipFile.opened archive)) →
          (∃ text, error = .badZipFile text) ∧ tested.decompressed = [] := by
        intro h
        cases h with
        | empty hempty =>
          rw [hread] at hempty
          cases hempty
        | @corrupt _ text _ hbad hnone =>
          rw [hread] at hbad
          exact ⟨⟨text, Except.error.inj hbad⟩, hnone⟩
      have hother : (∀ text, error ≠ .badZipFile text) →
          (((∃ bad, (.error error : Except ZipError (Option String)) = .ok bad) ∧
            tested.trace = []) ↔ Quiet (tested :: entries.map (ZipFile.opened archive))) := by
        intro hne
        constructor
        · intro ⟨⟨bad, hbad⟩, _⟩
          cases hbad
        · intro h
          obtain ⟨⟨text, heq⟩, -⟩ := hcorrupt h
          exact absurd heq (hne text)
      cases error with
      | badZipFile text =>
        dsimp only
        rw [trace_eq_nil_iff]
        exact ⟨fun h => .corrupt hread h.2, fun h => ⟨⟨_, rfl⟩, (hcorrupt h).2⟩⟩
      | osError text => exact hother (by simp)
      | runtimeError text => exact hother (by simp)
      | other exception => exact hother (by simp)

/-- An `ArchiveError` came before anything was decompressed. -/
def RefusedUnread (outcome : Except Raised ArchiveContents × List String) : Prop :=
  (∃ e, outcome.1 = .error (.app e) ∧ e.exception = "ArchiveError") ∧ outcome.2 = []

/-- An archive over a limit is refused unread exactly if the integrity test, which goes first, finds
nothing to decompress. -/
theorem refused_unread_iff (archiveName : String) (hopen : zipFile content = .ok archive)
    (hover : Exceeds limits archive) :
    RefusedUnread (extract limits zipFile content archiveName) ↔
      Quiet (archive.map (ZipFile.opened archive)) := by
  rw [← quiet_iff]
  unfold RefusedUnread extract
  rw [hopen]
  dsimp only
  show _ ↔ (∃ bad, (ZipFile.testzip archive).1 = .ok bad) ∧ (ZipFile.testzip archive).2 = []
  cases htest : (ZipFile.testzip archive).1 with
  | error error =>
    constructor
    · intro ⟨⟨e, he, _⟩, _⟩
      cases he
    · intro ⟨⟨bad, hbad⟩, _⟩
      cases hbad
  | ok bad =>
    cases bad with
    | some bad => exact ⟨fun h => ⟨⟨_, rfl⟩, h.2⟩, fun h => ⟨⟨_, rfl, rfl⟩, h.2⟩⟩
    | none =>
      rcases refusal_cases limits archiveName archive with ⟨hwithin, -⟩ | ⟨-, e, hsome, hclass⟩
      · exact absurd hover hwithin
      · dsimp only
        rw [hsome]
        exact ⟨fun h => ⟨⟨_, rfl⟩, h.2⟩, fun h => ⟨⟨e, rfl, hclass⟩, h.2⟩⟩

/-- Two files where one is allowed, and both are empty. -/
def Sample.empty : List ZipInfo :=
  [{ filename := "NDA.pdf", fileSize := 0 }, { filename := "MSA.pdf", fileSize := 0 }]

theorem refused_unread_empty :
    RefusedUnread (extract { maxArchiveMembers := 1 } (Sample.reader Sample.empty) [80, 75]
      "empty.zip") := by
  have hquiet : Quiet (Sample.empty.map (ZipFile.opened Sample.empty)) := by
    have hopened : Sample.empty.map (ZipFile.opened Sample.empty) = Sample.empty := by
      decide +kernel
    rw [hopened]
    exact .empty rfl (.empty rfl .nil)
  have hopen : Sample.reader Sample.empty [80, 75] = .ok Sample.empty := rfl
  have hover : Exceeds { maxArchiveMembers := 1 } Sample.empty := .inl (by decide +kernel)
  exact (refused_unread_iff "empty.zip" hopen hover).2 hquiet

/-- The guard on the number of files comes after every file has been decompressed. -/
theorem guard_late :
    Exceeds { maxArchiveMembers := 1 } Sample.vendors ∧
      (extract { maxArchiveMembers := 1 } (Sample.reader Sample.vendors) [80, 75]
        "vendors.zip").2 = ["vendor-a/NDA.pdf", "vendor-b/NDA.pdf", "notes.txt"] ∧
      ¬ RefusedUnread (extract { maxArchiveMembers := 1 } (Sample.reader Sample.vendors) [80, 75]
        "vendors.zip") := by
  have htrace : (extract { maxArchiveMembers := 1 } (Sample.reader Sample.vendors) [80, 75]
      "vendors.zip").2 = ["vendor-a/NDA.pdf", "vendor-b/NDA.pdf", "notes.txt"] := by
    decide +kernel
  refine ⟨.inl (by decide +kernel), htrace, fun h => ?_⟩
  have hnone := h.2
  rw [htrace] at hnone
  cases hnone

end ArchiveService

end Clear
