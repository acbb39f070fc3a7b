import P2pTunnler.Record
import P2pTunnler.Lib.Files

/-!
# Key generation

`keygen.rs` and the key texts of `crypto.rs`. What the operating system
answers is an input, call by call, and so is where each path leads; permission
bits are not part of the file system, only whether they could be set.
-/

namespace P2pTunnler

open Files (FileSystem Handle OpenOptions)

/-! ## Key texts -/

-- `str::as_bytes`
def textBytes (text : String) : Bytes := text.toUTF8.data.toList

namespace Encodings

variable (E : Encodings)

def decodeBase64Key (value : String) : Option (Octets 32) := (E.base64Decode value).bind (Octets.tryFrom 32)

-- `SecretKey::try_from`
def secretKey (value : String) : Option SecretKey := E.decodeBase64Key value

-- `Display for PublicKey`
def publicKeyText (key : PublicKey) : String := E.base64Encode key.toList

end Encodings

/-- The generated key, its text and its public key. -/
def generateSecretKeyBase64 {κ : Type} (E : Encodings) (B : SalsaBox κ) (generated : SecretKey) :
    SecretKey × String × PublicKey :=
  (generated, E.base64Encode generated.toList, B.publicKey generated)

/-! ## Opening the files -/

structure GenFlags where
  path : Option String
  pubPath : Option String
  insecurePriv : Bool
  overrideFiles : Bool

inductive GenError
  | io
  | context (text : String)
  | panic (text : String)
  deriving DecidableEq

/-- What the operating system lets through. A write that fails has written some bytes before. -/
structure Outcomes where
  openPrivate : Bool
  metadata : Bool
  setPermissions : Bool
  openPublic : Bool
  writePrivate : Option Nat
  writeStdout : Bool
  writePublic : Option Nat

def configureOutputFile (overrideFiles : Bool) : OpenOptions :=
  if overrideFiles then ⟨true, true, false, false⟩ else ⟨false, false, true, false⟩

section
variable {π : Type} [DecidableEq π]

def openPrivateKeyFile (path : String) (flags : GenFlags) (os : Outcomes) (fs : FileSystem π) :
    Except GenError (Handle π) × FileSystem π :=
  let options := { configureOutputFile flags.overrideFiles with noFollow := flags.overrideFiles }
  match Files.openFile options os.openPrivate fs path with
  | (none, fs) => (.error (.context "Failed to open private key file for writing"), fs)
  | (some file, fs) =>
    if !flags.insecurePriv then
      if !os.metadata then (.error .io, fs)
      else if !os.setPermissions then
        (.error (.context "Failed to set security permissions for private key file"), fs)
      else (.ok file, fs)
    else (.ok file, fs)

def openOutputFile (path : String) (overrideFiles : Bool) (description : String) (permitted : Bool)
    (fs : FileSystem π) : Except GenError (Handle π) × FileSystem π :=
  let options := { configureOutputFile overrideFiles with noFollow := overrideFiles }
  match Files.openFile options permitted fs path with
  | (none, fs) => (.error (.context s!"Failed to open {description} file for writing"), fs)
  | (some file, fs) => (.ok file, fs)

def GenFlags.publicPath (flags : GenFlags) : Option String := flags.pubPath.or (flags.path.map (· ++ ".pub"))

def openKeyFiles (flags : GenFlags) (os : Outcomes) (fs : FileSystem π) :
    Except GenError (Option (Handle π) × Option (Handle π)) × FileSystem π :=
  let opened : Except GenError (Option (Handle π)) × FileSystem π :=
    match flags.path with
    | some path =>
      match openPrivateKeyFile path flags os fs with
      | (.ok file, fs) => (.ok (some file), fs)
      | (.error e, fs) => (.error e, fs)
    | none => (.ok none, fs)
  match opened with
  | (.error e, fs) => (.error e, fs)
  | (.ok privateFile, fs) =>
    match flags.publicPath with
    | some path =>
      match openOutputFile path flags.overrideFiles "public key" os.openPublic fs with
      | (.ok file, fs) => (.ok (privateFile, some file), fs)
      | (.error e, fs) => (.error e, fs)
    | none => (.ok (privateFile, none), fs)

/-! ## Writing the keys -/

-- `write_all`, with the number of bytes after which it fails, if it does
def writeAll (fs : FileSystem π) (file : Handle π) (data : Bytes) (failsAfter : Option Nat) (text : String) :
    Except GenError Unit × FileSystem π :=
  match failsAfter with
  | none => (.ok (), Files.write fs file data)
  | some n => (.error (.context text), Files.write fs file (data.take n))

/-- The secret key goes to its file, or to the standard output. -/
def writeSecretKey (privateFile : Option (Handle π)) (text : String) (os : Outcomes) (fs : FileSystem π) :
    Except GenError Unit × FileSystem π × Bytes :=
  match privateFile with
  | some file =>
    let (written, fs) := writeAll fs file (textBytes text) os.writePrivate "Failed to write base64 to secret key file"
    (written, fs, [])
  | none =>
    if os.writeStdout then (.ok (), fs, textBytes (text ++ "\n"))
    else (.error (.context "Failed to write secret key to stdout"), fs, [])

def writePublicKey (publicFile : Option (Handle π)) (text : String) (os : Outcomes) (fs : FileSystem π) :
    Except GenError Unit × FileSystem π :=
  match publicFile with
  | some file => writeAll fs file (textBytes text) os.writePublic "Failed to write base64 to public key file"
  | none => (.ok (), fs)

/-- The result, the file system and what went to the standard output. -/
def generate {κ : Type} (E : Encodings) (B : SalsaBox κ) (generated : SecretKey) (flags : GenFlags) (os : Outcomes)
    (fs : FileSystem π) : Except GenError Unit × FileSystem π × Bytes :=
  let (_, secretKeyBase64, publicKey) := generateSecretKeyBase64 E B generated
  match openKeyFiles flags os fs with
  | (.error e, fs) => (.error e, fs, [])
  | (.ok (privateFile, publicFile), fs) =>
    match writeSecretKey privateFile secretKeyBase64 os fs with
    | (.error e, fs, out) => (.error e, fs, out)
    | (.ok (), fs, out) =>
      match writePublicKey publicFile (E.publicKeyText publicKey) os fs with
      | (.error e, fs) => (.error e, fs, out)
      | (.ok (), fs) =>
        match E.secretKey secretKeyBase64 with
        | none => (.error (.panic "Failed at reloading a key just generated"), fs, out)
        | some _ => (.ok (), fs, out)

end

end P2pTunnler
