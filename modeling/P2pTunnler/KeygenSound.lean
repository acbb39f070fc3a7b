import P2pTunnler.Keygen

/-!
# What key generation leaves on disk

Opening a key file empties it, and the private file is opened before it is
known whether the public one can be. So a failed call may have emptied or
created the private file; and two handles on one file write over each other,
whatever the paths that lead to it look like.
-/

namespace P2pTunnler

open Files (FileSystem Handle Node)

/-! ## Opening -/

/-- Whether what stands at a path lets a key file be opened there. -/
def Openable {π : Type} (overrideFiles : Bool) : Option (Node π) → Prop
  | none => True
  | some (.file _) => overrideFiles = true
  | some (.symlink _) => False

def Opens {π : Type} (overrideFiles permitted : Bool) (fs : FileSystem π) (path : String) : Prop :=
  permitted = true ∧ Openable overrideFiles (fs.look path)

/-- Nothing stands in the way of restricting the open private key file to its owner. -/
def Securable (flags : GenFlags) (os : Outcomes) : Prop :=
  flags.insecurePriv = true ∨ os.metadata = true ∧ os.setPermissions = true

/-- The file system with the file at `path` created or emptied. -/
def emptyFile {π : Type} [DecidableEq π] (fs : FileSystem π) (path : String) : FileSystem π :=
  Files.set fs (fs.resolve path) (.file [])

section
variable {π : Type} [DecidableEq π] {path : String} {overrideFiles permitted : Bool} {fs : FileSystem π}

-- created or truncated, an opened key file is empty
theorem openFile_opens (h : Opens overrideFiles permitted fs path) :
    Files.openFile { configureOutputFile overrideFiles with noFollow := overrideFiles } permitted fs path =
      (some ⟨fs.resolve path, 0⟩, emptyFile fs path) := by
  obtain ⟨rfl, h⟩ := h
  unfold FileSystem.look at h
  cases hn : fs.nodes (fs.resolve path) with
  | none => cases overrideFiles <;> simp [Files.openFile, Files.openFrom, configureOutputFile, hn, emptyFile]
  | some node =>
    rw [hn] at h
    cases node with
    | file contents =>
      obtain rfl : overrideFiles = true := h
      simp [Files.openFile, Files.openFrom, configureOutputFile, hn, emptyFile]
    | symlink target => exact h.elim

theorem openFile_refused (h : ¬Opens overrideFiles permitted fs path) :
    Files.openFile { configureOutputFile overrideFiles with noFollow := overrideFiles } permitted fs path =
      (none, fs) := by
  cases permitted with
  | false => rfl
  | true =>
    cases hn : fs.nodes (fs.resolve path) with
    | none => exact absurd ⟨rfl, by rw [FileSystem.look, hn]; trivial⟩ h
    | some node =>
      cases node with
      | file contents =>
        obtain rfl : overrideFiles = false := by simpa [Opens, Openable, FileSystem.look, hn] using h
        simp [Files.openFile, Files.openFrom, configureOutputFile, hn]
      | symlink target => cases overrideFiles <;> simp [Files.openFile, Files.openFrom, configureOutputFile, hn]

theorem openOutputFile_ok (description : String) (h : Opens overrideFiles permitted fs path) :
    openOutputFile path overrideFiles description permitted fs =
      (.ok ⟨fs.resolve path, 0⟩, emptyFile fs path) := by
  simp only [openOutputFile, openFile_opens h]

theorem openOutputFile_refused (description : String) (h : ¬Opens overrideFiles permitted fs path) :
    ∃ e, openOutputFile path overrideFiles description permitted fs = (.error e, fs) := by
  simp only [openOutputFile, openFile_refused h]
  exact ⟨_, rfl⟩

end

section
variable {π : Type} [DecidableEq π] {path : String} {flags : GenFlags} {os : Outcomes} {fs : FileSystem π}

theorem openPrivateKeyFile_refused (h : ¬Opens flags.overrideFiles os.openPrivate fs path) :
    ∃ e, openPrivateKeyFile path flags os fs = (.error e, fs) := by
  simp only [openPrivateKeyFile, openFile_refused h]
  exact ⟨_, rfl⟩

theorem openPrivateKeyFile_unsecured (h : Opens flags.overrideFiles os.openPrivate fs path)
    (hs : ¬Securable flags os) :
    ∃ e, openPrivateKeyFile path flags os fs = (.error e, emptyFile fs path) := by
  obtain ⟨hi, hp⟩ := not_or.mp hs
  rw [Bool.not_eq_true] at hi
  simp only [openPrivateKeyFile, openFile_opens h, hi]
  cases hm : os.metadata with
  | false => exact ⟨_, rfl⟩
  | true =>
    have hperm : os.setPermissions = false := by simpa [hm] using hp
    rw [hperm]
    exact ⟨_, rfl⟩

theorem openPrivateKeyFile_ok (h : Opens flags.overrideFiles os.openPrivate fs path) (hs : Securable flags os) :
    openPrivateKeyFile path flags os fs = (.ok ⟨fs.resolve path, 0⟩, emptyFile fs path) := by
  simp only [openPrivateKeyFile, openFile_opens h]
  rcases hs with hi | ⟨hm, hp⟩
  · simp [hi]
  · simp [hm, hp]

end

/-! ## The two files -/

section
variable {π : Type} [DecidableEq π] {flags : GenFlags} {p q : String}

theorem publicPath_of_path (h : flags.path = some p) : ∃ q, flags.publicPath = some q := by
  cases hq : flags.pubPath with
  | none => exact ⟨p ++ ".pub", by simp [GenFlags.publicPath, h, hq]⟩
  | some q => exact ⟨q, by simp [GenFlags.publicPath, hq]⟩

theorem openKeyFiles_publicOnly (os : Outcomes) (fs : FileSystem π) (h : flags.path = none)
    (hq : flags.publicPath = some q) :
    (Opens flags.overrideFiles os.openPublic fs q ∧
      openKeyFiles flags os fs = (.ok (none, some ⟨fs.resolve q, 0⟩), emptyFile fs q)) ∨
    (¬Opens flags.overrideFiles os.openPublic fs q ∧ ∃ e, openKeyFiles flags os fs = (.error e, fs)) := by
  by_cases ho : Opens flags.overrideFiles os.openPublic fs q
  · refine .inl ⟨ho, ?_⟩
    simp only [openKeyFiles, h, hq, openOutputFile_ok _ ho]
  · obtain ⟨e, he⟩ := openOutputFile_refused "public key" ho
    refine .inr ⟨ho, e, ?_⟩
    simp only [openKeyFiles, h, hq, he]

theorem openKeyFiles_cases (os : Outcomes) (fs : FileSystem π) (h : flags.path = some p)
    (hq : flags.publicPath = some q) :
    (¬Opens flags.overrideFiles os.openPrivate fs p ∧ ∃ e, openKeyFiles flags os fs = (.error e, fs)) ∨
    (Opens flags.overrideFiles os.openPrivate fs p ∧
      ¬(Securable flags os ∧ Opens flags.overrideFiles os.openPublic (emptyFile fs p) q) ∧
      ∃ e, openKeyFiles flags os fs = (.error e, emptyFile fs p)) ∨
    (Opens flags.overrideFiles os.openPrivate fs p ∧ Securable flags os ∧
      Opens flags.overrideFiles os.openPublic (emptyFile fs p) q ∧
      openKeyFiles flags os fs =
        (.ok (some ⟨fs.resolve p, 0⟩, some ⟨fs.resolve q, 0⟩), emptyFile (emptyFile fs p) q)) := by
  by_cases ho : Opens flags.overrideFiles os.openPrivate fs p
  · by_cases hs : Securable flags os
    · by_cases hp : Opens flags.overrideFiles os.openPublic (emptyFile fs p) q
      · refine .inr (.inr ⟨ho, hs, hp, ?_⟩)
        simp only [openKeyFiles, h, hq, openPrivateKeyFile_ok ho hs, openOutputFile_ok _ hp]
        rfl
      · obtain ⟨e, he⟩ := openOutputFile_refused "public key" hp
        refine .inr (.inl ⟨ho, fun hn => hp hn.2, e, ?_⟩)
        simp only [openKeyFiles, h, hq, openPrivateKeyFile_ok ho hs, he]
    · obtain ⟨e, he⟩ := openPrivateKeyFile_unsecured ho hs
      refine .inr (.inl ⟨ho, fun hn => hs hn.1, e, ?_⟩)
      simp only [openKeyFiles, h, he]
  · obtain ⟨e, he⟩ := openPrivateKeyFile_refused ho
    refine .inl ⟨ho, e, ?_⟩
    simp only [openKeyFiles, h, he]

/-! ## A failed call -/

variable {os : Outcomes} {fs : FileSystem π}

/-- The public key file can be opened once the private one, at `p`, is open. -/
def OpensPublic (flags : GenFlags) (os : Outcomes) (fs : FileSystem π) (p q : String) : Prop :=
  os.openPublic = true ∧
    if fs.SameFile q p then flags.overrideFiles = true else Openable flags.overrideFiles (fs.look q)

theorem opensPublic_iff :
    Opens flags.overrideFiles os.openPublic (emptyFile fs p) q ↔ OpensPublic flags os fs p q := by
  by_cases h : fs.SameFile q p
  · have hlook : (emptyFile fs p).look q = some (.file []) := by
      rw [FileSystem.look, emptyFile, Files.set_resolve, h, Files.set_same]
    simp [Opens, OpensPublic, h, hlook, Openable]
  · have hlook : (emptyFile fs p).look q = fs.look q := Files.set_other h _
    simp [Opens, OpensPublic, h, hlook]

/-- A call that fails has changed nothing. -/
def FailsClean (flags : GenFlags) (os : Outcomes) (fs : FileSystem π) : Prop :=
  ∀ e, (openKeyFiles flags os fs).1 = .error e → (openKeyFiles flags os fs).2 = fs

theorem failsClean_of_error {e : GenError} {fs' : FileSystem π} (h : openKeyFiles flags os fs = (.error e, fs')) :
    FailsClean flags os fs ↔ fs' = fs := by
  rw [FailsClean, h]
  constructor
  · intro hc
    exact hc e rfl
  · intro hc _ _
    exact hc

theorem failsClean_of_ok {files : Option (Handle π) × Option (Handle π)} {fs' : FileSystem π}
    (h : openKeyFiles flags os fs = (.ok files, fs')) : FailsClean flags os fs := by
  rw [FailsClean, h]
  intro e he
  cases he

theorem failsClean_publicOnly (h : flags.path = none) : FailsClean flags os fs := by
  cases hq : flags.publicPath with
  | none =>
    apply failsClean_of_ok
    simp only [openKeyFiles, h, hq]
    rfl
  | some q =>
    rcases openKeyFiles_publicOnly os fs h hq with ⟨-, ho⟩ | ⟨-, e, he⟩
    · exact failsClean_of_ok ho
    · exact (failsClean_of_error he).mpr rfl

/-- A failed call changes something exactly when the private key file was opened
over something other than an empty file, and what comes after it failed. -/
theorem failsClean_iff (flags : GenFlags) (os : Outcomes) (fs : FileSystem π) :
    FailsClean flags os fs ↔
      ∀ p q, flags.path = some p → flags.publicPath = some q → Opens flags.overrideFiles os.openPrivate fs p →
        fs.look p ≠ some (.file []) → Securable flags os ∧ OpensPublic flags os fs p q := by
  cases h : flags.path with
  | none => simp [failsClean_publicOnly h]
  | some p =>
    obtain ⟨q, hq⟩ := publicPath_of_path h
    have hone (P : String → String → Prop) :
        (∀ p' q', some p = some p' → flags.publicPath = some q' → P p' q') ↔ P p q := by
      simp [hq]
    rw [hone]
    rcases openKeyFiles_cases os fs h hq with ⟨ho, e, he⟩ | ⟨ho, hn, e, he⟩ | ⟨ho, hs, hp, hok⟩
    · rw [failsClean_of_error he]
      simp [ho]
    · rw [failsClean_of_error he, emptyFile, Files.set_eq_self]
      rw [opensPublic_iff] at hn
      simp [ho, hn, FileSystem.look]
    · rw [opensPublic_iff] at hp
      simp [failsClean_of_ok hok, hs, hp]

end

def permissive : Outcomes := ⟨true, true, true, true, none, true, none⟩

def overrideFlags (path : String) (pubPath : Option String) : GenFlags := ⟨some path, pubPath, false, true⟩

def linkedPub : FileSystem String where
  resolve := id
  nodes
    | "k" => some (.file (textBytes "old key"))
    | "k.pub" => some (.symlink "elsewhere")
    | _ => none

-- the public key's link is refused, after the old private key is gone
theorem linkedPub_truncated :
    (openKeyFiles (overrideFlags "k" none) permissive linkedPub).1 =
      .error (.context "Failed to open public key file for writing") ∧
    (openKeyFiles (overrideFlags "k" none) permissive linkedPub).2.look "k" = some (.file []) ∧
    linkedPub.look "k" = some (.file (textBytes "old key")) ∧
    ¬FailsClean (overrideFlags "k" none) permissive linkedPub := by
  refine ⟨rfl, rfl, rfl, fun h => ?_⟩
  have hk : some (Node.file []) = some (Node.file (textBytes "old key")) :=
    congrArg (fun fs : FileSystem String => fs.look "k") (h _ rfl)
  revert hk
  decide

/-! ## Writing -/

theorem textBytes_inj {a b : String} (h : textBytes a = textBytes b) : a = b :=
  String.toByteArray_inj.mp (ByteArray.ext (Array.toList_inj.mp h))

theorem decodeBase64Key_encode {E : Encodings} (hb : ∀ b, E.base64Decode (E.base64Encode b) = some b)
    (key : Octets 32) : E.decodeBase64Key (E.base64Encode key.toList) = some key := by
  rw [Encodings.decodeBase64Key, hb]
  exact Octets.tryFrom_eq_some.mpr rfl

section
variable {π : Type} [DecidableEq π]

def writeKey (fs : FileSystem π) (file : Option (Handle π)) (text : String) : FileSystem π :=
  match file with
  | some file => Files.write fs file (textBytes text)
  | none => fs

def emptied (fs : FileSystem π) (path : Option String) : FileSystem π :=
  match path with
  | some p => emptyFile fs p
  | none => fs

theorem writeAll_ok {fs : FileSystem π} {file : Handle π} {data : Bytes} {failsAfter : Option Nat} {text : String}
    (h : (writeAll fs file data failsAfter text).1 = .ok ()) :
    (writeAll fs file data failsAfter text).2 = Files.write fs file data := by
  cases failsAfter with
  | none => rfl
  | some n => cases h

theorem writeSecretKey_ok {file : Option (Handle π)} {text : String} {os : Outcomes} {fs : FileSystem π}
    (h : (writeSecretKey file text os fs).1 = .ok ()) :
    (writeSecretKey file text os fs).2.1 = writeKey fs file text := by
  cases file with
  | none =>
    cases hw : os.writeStdout <;> simp [writeSecretKey, writeKey, hw]
  | some file => exact writeAll_ok h

theorem writePublicKey_ok {file : Option (Handle π)} {text : String} {os : Outcomes} {fs : FileSystem π}
    (h : (writePublicKey file text os fs).1 = .ok ()) :
    (writePublicKey file text os fs).2 = writeKey fs file text := by
  cases file with
  | none => rfl
  | some file => exact writeAll_ok h

theorem write_empty {fs : FileSystem π} {place : π} (h : fs.nodes place = some (.file [])) (data : Bytes) :
    Files.write fs ⟨place, 0⟩ data = Files.set fs place (.file data) := by
  rw [Files.write_file h, Files.overwrite_nil]

end

section
variable {κ π : Type} [DecidableEq π] {E : Encodings} {B : SalsaBox κ} {generated : SecretKey} {flags : GenFlags}
  {os : Outcomes} {fs fs' : FileSystem π} {out : Bytes}

theorem generate_ok (h : generate E B generated flags os fs = (.ok (), fs', out)) :
    ∃ privateFile publicFile fs₁, openKeyFiles flags os fs = (.ok (privateFile, publicFile), fs₁) ∧
      fs' = writeKey (writeKey fs₁ privateFile (E.base64Encode generated.toList)) publicFile
        (E.publicKeyText (B.publicKey generated)) := by
  rcases hk : openKeyFiles flags os fs with ⟨e | ⟨privateFile, publicFile⟩, fs₁⟩
  · simp [generate, hk] at h
  refine ⟨privateFile, publicFile, fs₁, rfl, ?_⟩
  rcases hs : writeSecretKey privateFile (E.base64Encode generated.toList) os fs₁ with ⟨e | ⟨⟩, fs₂, out₂⟩
  · simp [generate, generateSecretKeyBase64, hk, hs] at h
  rcases hp : writePublicKey publicFile (E.publicKeyText (B.publicKey generated)) os fs₂ with ⟨e | ⟨⟩, fs₃⟩
  · simp [generate, generateSecretKeyBase64, hk, hs, hp] at h
  have h2 : fs₂ = writeKey fs₁ privateFile (E.base64Encode generated.toList) := by
    simpa [hs] using writeSecretKey_ok (congrArg Prod.fst hs)
  have h3 : fs₃ = writeKey fs₂ publicFile (E.publicKeyText (B.publicKey generated)) := by
    simpa [hp] using writePublicKey_ok (congrArg Prod.fst hp)
  cases hr : E.secretKey (E.base64Encode generated.toList) with
  | none => simp [generate, generateSecretKeyBase64, hk, hs, hp, hr] at h
  | some _ =>
    simp only [generate, generateSecretKeyBase64, hk, hs, hp, hr, Prod.mk.injEq] at h
    rw [← h.2.1, h3, h2]

theorem openKeyFiles_ok {privateFile publicFile : Option (Handle π)} {fs₁ : FileSystem π}
    (h : openKeyFiles flags os fs = (.ok (privateFile, publicFile), fs₁)) :
    privateFile = flags.path.map (fun p => ⟨fs.resolve p, 0⟩) ∧
      publicFile = flags.publicPath.map (fun q => ⟨fs.resolve q, 0⟩) ∧
      fs₁ = emptied (emptied fs flags.path) flags.publicPath := by
  cases hp : flags.path with
  | none =>
    cases hq : flags.publicPath with
    | none =>
      simp only [openKeyFiles, hp, hq, Prod.mk.injEq, Except.ok.injEq] at h
      obtain ⟨⟨rfl, rfl⟩, rfl⟩ := h
      exact ⟨rfl, rfl, rfl⟩
    | some q =>
      rcases openKeyFiles_publicOnly os fs hp hq with ⟨-, ho⟩ | ⟨-, e, he⟩
      · rw [ho] at h
        cases h
        exact ⟨rfl, rfl, rfl⟩
      · rw [he] at h
        cases h
  | some p =>
    obtain ⟨q, hq⟩ := publicPath_of_path hp
    rcases openKeyFiles_cases os fs hp hq with ⟨-, e, he⟩ | ⟨-, -, e, he⟩ | ⟨-, -, -, hok⟩
    · rw [he] at h
      cases h
    · rw [he] at h
      cases h
    · rw [hok] at h
      cases h
      rw [hq]
      exact ⟨rfl, rfl, rfl⟩

/-! ## A stored pair -/

/-- Each key is alone in its file, the secret one can be loaded, and nothing else has changed. -/
structure StoresPair (E : Encodings) (B : SalsaBox κ) (generated : SecretKey) (flags : GenFlags)
    (fs fs' : FileSystem π) : Prop where
  secret : ∀ p, flags.path = some p → fs'.look p = some (.file (textBytes (E.base64Encode generated.toList)))
  loads : E.secretKey (E.base64Encode generated.toList) = some generated
  pub : ∀ q, flags.publicPath = some q →
    fs'.look q = some (.file (textBytes (E.publicKeyText (B.publicKey generated))))
  resolve : fs'.resolve = fs.resolve
  frame : ∀ place, (∀ p, flags.path = some p → place ≠ fs.resolve p) →
    (∀ q, flags.publicPath = some q → place ≠ fs.resolve q) → fs'.nodes place = fs.nodes place

theorem write_two {a b : π} (hne : b ≠ a) (x y : Bytes) :
    Files.write (Files.write (Files.set (Files.set fs a (.file [])) b (.file [])) ⟨a, 0⟩ x) ⟨b, 0⟩ y =
      Files.set (Files.set (Files.set (Files.set fs a (.file [])) b (.file [])) a (.file x)) b (.file y) := by
  have ha : (Files.set (Files.set fs a (.file [])) b (.file [])).nodes a = some (.file []) := by simp [hne.symm]
  rw [write_empty ha, write_empty (by simp [hne])]

theorem write_same (a : π) (x y : Bytes) :
    Files.write (Files.write (Files.set (Files.set fs a (.file [])) a (.file [])) ⟨a, 0⟩ x) ⟨a, 0⟩ y =
      Files.set fs a (.file (y ++ x.drop y.length)) := by
  rw [Files.set_set, Files.write_set, Files.write_set, Files.overwrite_nil, Files.overwrite_zero]

theorem storesPair_publicOnly (hb : ∀ b, E.base64Decode (E.base64Encode b) = some b) (hp : flags.path = none)
    (h : fs' = writeKey (emptied fs flags.publicPath) (flags.publicPath.map fun q => ⟨fs.resolve q, 0⟩)
      (E.publicKeyText (B.publicKey generated))) : StoresPair E B generated flags fs fs' := by
  cases hq : flags.publicPath with
  | none =>
    rw [hq] at h
    subst h
    exact ⟨by simp [hp], decodeBase64Key_encode hb generated, by simp [hq], rfl, fun _ _ _ => rfl⟩
  | some q =>
    rw [hq] at h
    have hfs : fs' = Files.set fs (fs.resolve q) (.file (textBytes (E.publicKeyText (B.publicKey generated)))) := by
      rw [h]
      show Files.write (Files.set fs (fs.resolve q) (.file [])) ⟨fs.resolve q, 0⟩ _ = _
      rw [Files.write_set, Files.overwrite_nil]
    subst hfs
    refine ⟨by simp [hp], decodeBase64Key_encode hb generated, ?_, rfl, fun place _ hplace => ?_⟩
    · intro q' hq'
      obtain rfl := Option.some.inj (hq.symm.trans hq')
      exact Files.set_same _ _ _
    · exact Files.set_other (hplace q hq) _

theorem storesPair_twoFiles {p q : String} (hb : ∀ b, E.base64Decode (E.base64Encode b) = some b)
    (hp : flags.path = some p) (hq : flags.publicPath = some q) (hne : ¬fs.SameFile q p)
    (h : fs' = Files.set (Files.set (Files.set (Files.set fs (fs.resolve p) (.file [])) (fs.resolve q) (.file []))
      (fs.resolve p) (.file (textBytes (E.base64Encode generated.toList)))) (fs.resolve q)
      (.file (textBytes (E.publicKeyText (B.publicKey generated))))) : StoresPair E B generated flags fs fs' := by
  have hne' : fs.resolve q ≠ fs.resolve p := hne
  subst h
  refine ⟨?_, decodeBase64Key_encode hb generated, ?_, rfl, ?_⟩
  · intro p' hp'
    obtain rfl := Option.some.inj (hp.symm.trans hp')
    simp [FileSystem.look, hne'.symm]
  · intro q' hq'
    obtain rfl := Option.some.inj (hq.symm.trans hq')
    simp [FileSystem.look]
  · intro place hplace hplace'
    have h₁ := hplace p hp
    have h₂ := hplace' q hq
    simp [h₁, h₂]

theorem storesPair_oneFile {p q : String} (hb : ∀ b, E.base64Decode (E.base64Encode b) = some b)
    (hp : flags.path = some p) (hq : flags.publicPath = some q) (hsame : fs.SameFile q p)
    (h : fs' = Files.set fs (fs.resolve p) (.file (textBytes (E.publicKeyText (B.publicKey generated)) ++
      (textBytes (E.base64Encode generated.toList)).drop
        (textBytes (E.publicKeyText (B.publicKey generated))).length))) :
    StoresPair E B generated flags fs fs' ↔ B.publicKey generated = generated := by
  have hlook : fs'.look q = fs'.look p := by
    subst h
    exact FileSystem.SameFile.look hsame
  constructor
  · intro hs
    have htexts := (hs.pub q hq).symm.trans (hlook.trans (hs.secret p hp))
    simp only [Option.some.injEq, Node.file.injEq] at htexts
    have hkeys := congrArg E.decodeBase64Key (textBytes_inj htexts)
    rw [Encodings.publicKeyText, decodeBase64Key_encode hb, decodeBase64Key_encode hb] at hkeys
    exact Option.some.inj hkeys
  · intro hk
    rw [Encodings.publicKeyText, hk, List.drop_length, List.append_nil] at h
    have hfile : fs'.look p = some (.file (textBytes (E.base64Encode generated.toList))) := by
      subst h
      exact Files.set_same _ _ _
    refine ⟨fun p' hp' => ?_, decodeBase64Key_encode hb generated, fun q' hq' => ?_, by rw [h]; rfl,
      fun place hplace _ => ?_⟩
    · rw [← Option.some.inj (hp.symm.trans hp'), hfile]
    · rw [← Option.some.inj (hq.symm.trans hq'), hlook, hfile, Encodings.publicKeyText, hk]
    · rw [h, Files.set_other (hplace p hp)]

theorem generate_files (h : generate E B generated flags os fs = (.ok (), fs', out)) {p q : String}
    (hp : flags.path = some p) (hq : flags.publicPath = some q) :
    fs' = Files.write (Files.write (Files.set (Files.set fs (fs.resolve p) (.file [])) (fs.resolve q) (.file []))
      ⟨fs.resolve p, 0⟩ (textBytes (E.base64Encode generated.toList))) ⟨fs.resolve q, 0⟩
      (textBytes (E.publicKeyText (B.publicKey generated))) := by
  obtain ⟨privateFile, publicFile, fs₁, hok, hfs⟩ := generate_ok h
  obtain ⟨rfl, rfl, rfl⟩ := openKeyFiles_ok hok
  rw [hp, hq] at hfs
  exact hfs

/-- A pair is stored unless both keys go to one file, and then only if they are the same key. -/
theorem storesPair_iff (hb : ∀ b, E.base64Decode (E.base64Encode b) = some b)
    (h : generate E B generated flags os fs = (.ok (), fs', out)) :
    StoresPair E B generated flags fs fs' ↔
      ∀ p q, flags.path = some p → flags.publicPath = some q → fs.SameFile q p → B.publicKey generated = generated := by
  cases hp : flags.path with
  | none =>
    obtain ⟨privateFile, publicFile, fs₁, hok, hfs⟩ := generate_ok h
    obtain ⟨rfl, rfl, rfl⟩ := openKeyFiles_ok hok
    rw [hp] at hfs
    have hs : StoresPair E B generated flags fs fs' := storesPair_publicOnly hb hp hfs
    simp [hs]
  | some p =>
    obtain ⟨q, hq⟩ := publicPath_of_path hp
    have hfs := generate_files h hp hq
    by_cases hsame : fs.SameFile q p
    · have hplace : fs.resolve q = fs.resolve p := hsame
      rw [hplace, write_same] at hfs
      rw [storesPair_oneFile hb hp hq hsame hfs]
      simp [hq, hsame]
    · rw [write_two hsame] at hfs
      have hs : StoresPair E B generated flags fs fs' := storesPair_twoFiles hb hp hq hsame hfs
      simp [hs, hq, hsame]

end

/-! ### The key of all zeros -/

def zeroKey : SecretKey := ⟨List.replicate 32 0, by simp⟩

-- its X25519 public key
def zeroPublic : PublicKey :=
  ⟨[47, 229, 125, 163, 71, 205, 98, 67, 21, 40, 218, 172, 95, 187, 41, 7, 48, 255, 246, 132, 175, 196, 207, 194, 237,
    144, 153, 95, 88, 203, 59, 116], rfl⟩

def zeroKeyText : String := "AAAAAAAAAAAAAAAAAAAAAAAAAAAAAAAAAAAAAAAAAAA="

def zeroPublicText : String := "L+V9o0fNYkMVKNqsX7spBzD/9oSvxM/C7ZCZX1jLO3Q="

def zeroBox : SalsaBox (Octets 64) := { sampleBox with publicKey s := if s = zeroKey then zeroPublic else s }

-- Base64 of the two keys; other texts are only told apart from them
def zeroEnc : Encodings := { sampleEnc with
  base64Encode b :=
    if b = zeroKey.toList then zeroKeyText
    else if b = zeroPublic.toList then zeroPublicText
    else String.ofList ('!' :: b.map fun x => Char.ofNat x.toNat)
  base64Decode s :=
    if s = zeroKeyText then some zeroKey.toList
    else if s = zeroPublicText then some zeroPublic.toList
    else some ((s.toList.drop 1).map Char.toUInt8) }

theorem toUInt8_ofNat (x : UInt8) : (Char.ofNat x.toNat).toUInt8 = x := by
  have hv : x.toNat.isValidChar := .inl (by have := x.toNat_lt; omega)
  rw [Char.ofNat, dif_pos hv]
  apply UInt8.toNat_inj.mp
  exact Nat.mod_eq_of_lt x.toNat_lt

theorem ofList_cons_ne {c : Char} {l : List Char} {text : String} (h : text.toList.head? ≠ some c) :
    String.ofList (c :: l) ≠ text := by
  intro he
  apply h
  rw [← he, String.toList_ofList]
  rfl

theorem zeroEnc_decode (b : Bytes) : zeroEnc.base64Decode (zeroEnc.base64Encode b) = some b := by
  by_cases hz : b = zeroKey.toList
  · subst hz
    decide
  · by_cases hp : b = zeroPublic.toList
    · subst hp
      decide
    · have hk (l : List Char) : String.ofList ('!' :: l) ≠ zeroKeyText := ofList_cons_ne (by decide)
      have hpub (l : List Char) : String.ofList ('!' :: l) ≠ zeroPublicText := ofList_cons_ne (by decide)
      simp only [zeroEnc, if_neg hz, if_neg hp, hk, hpub, if_false, String.toList_ofList, List.drop_succ_cons,
        List.drop_zero, List.map_map]
      simp [Function.comp_def, toUInt8_ofNat]

def emptyDisk : FileSystem String := ⟨id, fun _ => none⟩

theorem zeroKey_stored :
    StoresPair zeroEnc zeroBox zeroKey (overrideFlags "k" none) emptyDisk
      (generate zeroEnc zeroBox zeroKey (overrideFlags "k" none) permissive emptyDisk).2.1 := by
  refine (storesPair_iff zeroEnc_decode (rfl : generate _ _ _ _ permissive _ = _)).mpr ?_
  intro p q hp hq hsame
  obtain rfl : "k" = p := Option.some.inj hp
  obtain rfl : "k.pub" = q := Option.some.inj hq
  exact absurd hsame (by decide)

/-- An empty directory, in which `./k` is another spelling of `k`. -/
def dottedDisk : FileSystem String := ⟨fun path => if path = "./k" then "k" else path, fun _ => none⟩

-- both handles write at the start of one file: the public text covers the secret one
theorem oneFile_lost :
    (∀ b, zeroEnc.base64Decode (zeroEnc.base64Encode b) = some b) ∧
    ∀ pubPath ∈ ["k", "./k"],
      (generate zeroEnc zeroBox zeroKey (overrideFlags "k" (some pubPath)) permissive dottedDisk).1 = .ok () ∧
      (generate zeroEnc zeroBox zeroKey (overrideFlags "k" (some pubPath)) permissive dottedDisk).2.1.look "k" =
        some (.file (textBytes zeroPublicText)) ∧
      ¬StoresPair zeroEnc zeroBox zeroKey (overrideFlags "k" (some pubPath)) dottedDisk
        (generate zeroEnc zeroBox zeroKey (overrideFlags "k" (some pubPath)) permissive dottedDisk).2.1 := by
  refine ⟨zeroEnc_decode, ?_⟩
  intro pubPath hpub
  have hk : (generate zeroEnc zeroBox zeroKey (overrideFlags "k" (some pubPath)) permissive dottedDisk).1 = .ok () ∧
      (generate zeroEnc zeroBox zeroKey (overrideFlags "k" (some pubPath)) permissive dottedDisk).2.1.look "k" =
        some (.file (textBytes zeroPublicText)) := by
    simp only [List.mem_cons, List.not_mem_nil, or_false] at hpub
    rcases hpub with rfl | rfl <;> decide +kernel
  refine ⟨hk.1, hk.2, fun h => ?_⟩
  have hfile : some (Node.file (π := String) (textBytes zeroPublicText)) = some (.file (textBytes zeroKeyText)) :=
    hk.2.symm.trans (h.secret "k" rfl)
  revert hfile
  decide

end P2pTunnler
