import NPSync.Engine.Apply

/-! A platform with prescribed answers. On the listed inputs it returns the
listed SHA-256 digests, AES-256-GCM outputs and parsed documents; everywhere
else it is a stand-in that still satisfies the laws of `Primitives`. Paths are
ASCII. -/
namespace NPSync

def nibble (c : UInt8) : Nat := if 97 ≤ c then c.toNat - 87 else c.toNat - 48

/-- Bytes written as lower-case hex. -/
def unhexBytes : Str → Bytes
  | a::b::rest => UInt8.ofNat (nibble a * 16 + nibble b)::unhexBytes rest
  | _ => []

def unhex (text : String) : Bytes := unhexBytes (lit text)

structure KnownSeal where
  key : Bytes
  nonce : Bytes
  plaintext : Bytes
  aad : Str
  ciphertext : Bytes
  tag : Tag

namespace KnownAnswers

def zeroDigest : Digest := ⟨List.replicate 32 0,by decide⟩
def zeroTag : Tag := ⟨List.replicate 16 0,by decide⟩

def digest (digests : List (Bytes × Digest)) (data : Bytes) : Digest :=
  match digests.find? (fun known => known.1 = data) with
  | some known => known.2
  | none => zeroDigest

def gcmSeal (seals : List KnownSeal) (key : Bytes) (nonce : Nonce) (plaintext : Bytes) (aad : Str) :
    Bytes × Tag :=
  match seals.find? (fun k => k.key = key ∧ k.nonce = nonce.1 ∧ k.plaintext = plaintext ∧ k.aad = aad) with
  | some known => (known.ciphertext,known.tag)
  | none => (plaintext,zeroTag)

def gcmOpen (seals : List KnownSeal) (key nonce ciphertext : Bytes) (aad : Str) (tag : Bytes) :
    Option Bytes :=
  match seals.find? (fun k => k.key = key ∧ k.nonce = nonce ∧ k.ciphertext = ciphertext ∧ k.aad = aad ∧
      k.tag.1 = tag) with
  | some known => some known.plaintext
  | none => if tag = zeroTag.1 then some ciphertext else none

/-- A list of seals that a cipher can have: lengths agree, no tag is the
stand-in's, and the output determines the plaintext. -/
structure Consistent (seals : List KnownSeal) : Prop where
  lengths : ∀ k ∈ seals, k.ciphertext.length = k.plaintext.length
  tags : ∀ k ∈ seals, k.tag.1 ≠ zeroTag.1
  determined : ∀ k ∈ seals, ∀ l ∈ seals, k.key = l.key → k.nonce = l.nonce → k.ciphertext = l.ciphertext →
    k.aad = l.aad → k.tag.1 = l.tag.1 → k.plaintext = l.plaintext

theorem gcmSeal_length (seals : List KnownSeal) (consistent : Consistent seals) (key : Bytes)
    (nonce : Nonce) (plaintext : Bytes) (aad : Str) :
    (gcmSeal seals key nonce plaintext aad).1.length = plaintext.length := by
  unfold gcmSeal
  split
  · rename_i known found
    have matching := List.find?_some found
    simp only [decide_eq_true_eq] at matching
    rw [consistent.lengths known (List.mem_of_find?_eq_some found),matching.2.2.1]
  · rfl

theorem gcmOpen_seal (seals : List KnownSeal) (consistent : Consistent seals) (key : Bytes)
    (nonce : Nonce) (plaintext : Bytes) (aad : Str) :
    gcmOpen seals key nonce.1 (gcmSeal seals key nonce plaintext aad).1 aad
      (gcmSeal seals key nonce plaintext aad).2.1 = some plaintext := by
  unfold gcmSeal
  split
  · rename_i known found
    have member := List.mem_of_find?_eq_some found
    have matching := List.find?_some found
    simp only [decide_eq_true_eq] at matching
    unfold gcmOpen
    split
    · rename_i other there
      have same := List.find?_some there
      simp only [decide_eq_true_eq] at same
      have equal := consistent.determined other (List.mem_of_find?_eq_some there) known member
        (same.1.trans matching.1.symm) (same.2.1.trans matching.2.1.symm) same.2.2.1
        (same.2.2.2.1.trans matching.2.2.2.symm) same.2.2.2.2
      rw [equal,matching.2.2.1]
    · rename_i missing
      have absent := List.find?_eq_none.mp missing known member
      exact absurd (decide_eq_true ⟨matching.1,matching.2.1,rfl,matching.2.2.2,rfl⟩) absent
  · unfold gcmOpen
    split
    · rename_i other there
      have same := List.find?_some there
      simp only [decide_eq_true_eq] at same
      exact absurd same.2.2.2.2 (consistent.tags other (List.mem_of_find?_eq_some there))
    · rfl

/-- Under another key a seal opens as itself or not at all, if its output alone determines
the plaintext of every listed seal. -/
theorem gcmOpen_other {seals : List KnownSeal} (consistent : Consistent seals)
    (committing : ∀ k ∈ seals, ∀ l ∈ seals, k.nonce = l.nonce → k.ciphertext = l.ciphertext → k.aad = l.aad →
      k.tag.1 = l.tag.1 → k.plaintext = l.plaintext) {key other plaintext opened : Bytes} {nonce : Nonce} {aad : Str}
    (opens : gcmOpen seals other nonce.1 (gcmSeal seals key nonce plaintext aad).1 aad
      (gcmSeal seals key nonce plaintext aad).2.1 = some opened) : opened = plaintext := by
  unfold gcmSeal at opens
  split at opens
  · rename_i known found
    have member := List.mem_of_find?_eq_some found
    have matching := List.find?_some found
    simp only [decide_eq_true_eq] at matching
    unfold gcmOpen at opens
    split at opens
    · rename_i second there
      have same := List.find?_some there
      simp only [decide_eq_true_eq] at same
      have equal := committing second (List.mem_of_find?_eq_some there) known member (same.2.1.trans matching.2.1.symm)
        same.2.2.1 (same.2.2.2.1.trans matching.2.2.2.symm) same.2.2.2.2
      rw [← Option.some.inj opens,equal,matching.2.2.1]
    · rw [if_neg (consistent.tags known member)] at opens
      contradiction
  · unfold gcmOpen at opens
    split at opens
    · rename_i second there
      have same := List.find?_some there
      simp only [decide_eq_true_eq] at same
      exact absurd same.2.2.2.2 (consistent.tags second (List.mem_of_find?_eq_some there))
    · rw [if_pos rfl] at opens
      exact (Option.some.inj opens).symm

def primitives (digests : List (Bytes × Digest)) (seals : List KnownSeal) (consistent : Consistent seals) :
    Primitives where
  sha256 := digest digests
  gcmSeal := gcmSeal seals
  gcmOpen := gcmOpen seals
  gcmSeal_length := gcmSeal_length seals consistent
  gcmOpen_seal := gcmOpen_seal seals consistent

def digestOf (data : Bytes) (answer : String) (sized : (unhex answer).length = 32 := by decide +kernel) :
    Bytes × Digest := (data,⟨unhex answer,sized⟩)

def masterKey : Bytes := (List.range 32).map UInt8.ofNat

def zeroKey : {key : Bytes // key.length = 32} := ⟨List.replicate 32 0,List.length_replicate⟩

def nonceOf (b : UInt8) : Nonce := ⟨List.replicate 12 b,by simp [kGcmNonceLen]⟩

/-- The UUID draw of one repeated byte. -/
def uuidOf (b : UInt8) : {bytes : Bytes // bytes.length = 16} := ⟨List.replicate 16 b,List.length_replicate⟩

/-- A seal under `masterKey` with the nonce that repeats one byte. -/
def sealOf (b : UInt8) (plaintext aad ciphertext tag : String)
    (sized : (unhex tag).length = kGcmTagLen := by decide +kernel) : KnownSeal :=
  ⟨masterKey,(nonceOf b).1,lit plaintext,lit aad,unhex ciphertext,⟨unhex tag,sized⟩⟩

def seals : List KnownSeal := [
  sealOf 1 "hello" "file" "1fa6895907" "ec0863e2f1f30802e122435af2626263",
  sealOf 2 "\x7b\"relative_path\":\"root:notes.txt\"\x7d" "metadata"
    "e00a6bded5b84532bde0fd88520db23126cbdd03fb20429f2d2ab470591f31b6f285" "a90d607d38be8e606f4d20aafd68c15f",
  sealOf 3 "\x7b\"relative_path\":\"notes.txt\"\x7d" "metadata"
    "95694eb367f3267fa838590eacde3c252074989fae9d4f9ff6c5323f79" "7963b81220c5ce93850d4b5540ab80d3",
  sealOf 4 "hello" "file" "0ce2a2e446" "1ee955233b214c86d2cce667ce734791",
  sealOf 5 "\x7b\"relative_path\":\"root:notes.txt\"\x7d" "metadata"
    "3714aa14cc5cee8349eb549068676ef76f55e6b08baeafe55d55b750f04b68290d3e" "80c2ffdf6fdf2a0f9519616b33a885b1"]

def digests : List (Bytes × Digest) := [
  digestOf (lit "hello") "2cf24dba5fb0a30e26e83b2ac5b9e29e1b161e5c1fa7425e73043362938b9824",
  digestOf (lit "world") "486ea46224d1bb4fb680f34f7c9ad96a8f24ec88be73ea8e5a6c65260e9cb8a7",
  digestOf (unhex "4e50533101010101010101010101010101ec0863e2f1f30802e122435af26262631fa6895907")
    "7f6cbf117c8f9ae9a755ae37b34adcee94b9600958b62dd3a315f1ba17b81269",
  digestOf (unhex "4e505331010404040404040404040404041ee955233b214c86d2cce667ce7347910ce2a2e446")
    "72f2be278f2b2ea92282288d2cf86bbf46015145827374274831ecd179239a01",
  digestOf (lit "root:notes.txt02cf24dba5fb0a30e26e83b2ac5b9e29e1b161e5c1fa7425e73043362938b9824")
    "ecd7d3bf97a1ddf099e0d880131efdbdab5cc5f99880601f90d03ed5daa02881",
  digestOf (lit "root:notes.txt") "d4c17acf05803eba06a649370f82265b102cae36d8cce5582d006805540ee495"]

/-! ### The same answers in numerals

The kernel evaluates a numeral at once and a string literal in time that grows
with the square of its length. Facts about whole runs are decided on these. -/

/-- The big-endian bytes of a number. -/
def numeral (size value : Nat) : Bytes := (List.range size).map (fun i => UInt8.ofNat (value / 256^(size - 1 - i)))

theorem numeral_length (size value : Nat) : (numeral size value).length = size := by
  rw [numeral,List.length_map,List.length_range]

theorem lit_text (text : List Char) : lit (String.ofList text) = text.map (fun c => UInt8.ofNat c.toNat) := by
  rw [lit,String.toList_ofList]

theorem lit_numeral {size value : Nat} (text : List Char)
    (same : text.map (fun c => UInt8.ofNat c.toNat) = numeral size value) :
    lit (String.ofList text) = numeral size value := by
  rw [lit_text]
  exact same

theorem unhex_numeral {size value : Nat} (text : List Char)
    (same : unhexBytes (text.map (fun c => UInt8.ofNat c.toNat)) = numeral size value) :
    unhex (String.ofList text) = numeral size value := by
  rw [unhex,lit_text]
  exact same

def sealIn (b : UInt8) (aad : String) (plaintext ciphertext : Bytes) (tag : Nat) : KnownSeal :=
  ⟨masterKey,(nonceOf b).1,plaintext,lit aad,ciphertext,⟨numeral 16 tag,numeral_length 16 tag⟩⟩

def digestIn (data : Bytes) (answer : Nat) : Bytes × Digest := (data,⟨numeral 32 answer,numeral_length 32 answer⟩)

theorem sealOf_eq {b : UInt8} {plaintext aad ciphertext tag : String} {sized : (unhex tag).length = kGcmTagLen}
    {text sealed : Bytes} {tagged : Nat} (first : lit plaintext = text) (second : unhex ciphertext = sealed)
    (third : unhex tag = numeral 16 tagged) :
    sealOf b plaintext aad ciphertext tag sized = sealIn b aad text sealed tagged := by
  subst first second
  exact congrArg (fun tag => (⟨masterKey,(nonceOf b).1,lit plaintext,lit aad,unhex ciphertext,tag⟩ : KnownSeal))
    (Subtype.ext third)

theorem digestOf_eq {data text : Bytes} {answer : String} {sized : (unhex answer).length = 32} {value : Nat}
    (first : data = text) (second : unhex answer = numeral 32 value) : digestOf data answer sized = digestIn text value := by
  subst first
  exact congrArg (Prod.mk data) (Subtype.ext second)

def numeralSeals : List KnownSeal := [
  sealIn 1 "file" (numeral 5 0x68656c6c6f)
    (numeral 5 0x1fa6895907) 0xec0863e2f1f30802e122435af2626263,
  sealIn 2 "metadata" (numeral 34 0x7b2272656c61746976655f70617468223a22726f6f743a6e6f7465732e747874227d)
    (numeral 34 0xe00a6bded5b84532bde0fd88520db23126cbdd03fb20429f2d2ab470591f31b6f285) 0xa90d607d38be8e606f4d20aafd68c15f,
  sealIn 3 "metadata" (numeral 29 0x7b2272656c61746976655f70617468223a226e6f7465732e747874227d)
    (numeral 29 0x95694eb367f3267fa838590eacde3c252074989fae9d4f9ff6c5323f79) 0x7963b81220c5ce93850d4b5540ab80d3,
  sealIn 4 "file" (numeral 5 0x68656c6c6f)
    (numeral 5 0x0ce2a2e446) 0x1ee955233b214c86d2cce667ce734791,
  sealIn 5 "metadata" (numeral 34 0x7b2272656c61746976655f70617468223a22726f6f743a6e6f7465732e747874227d)
    (numeral 34 0x3714aa14cc5cee8349eb549068676ef76f55e6b08baeafe55d55b750f04b68290d3e) 0x80c2ffdf6fdf2a0f9519616b33a885b1]

def numeralDigests : List (Bytes × Digest) := [
  digestIn (numeral 5 0x68656c6c6f)
    0x2cf24dba5fb0a30e26e83b2ac5b9e29e1b161e5c1fa7425e73043362938b9824,
  digestIn (numeral 5 0x776f726c64)
    0x486ea46224d1bb4fb680f34f7c9ad96a8f24ec88be73ea8e5a6c65260e9cb8a7,
  digestIn (numeral 38 0x4e50533101010101010101010101010101ec0863e2f1f30802e122435af26262631fa6895907)
    0x7f6cbf117c8f9ae9a755ae37b34adcee94b9600958b62dd3a315f1ba17b81269,
  digestIn (numeral 38 0x4e505331010404040404040404040404041ee955233b214c86d2cce667ce7347910ce2a2e446)
    0x72f2be278f2b2ea92282288d2cf86bbf46015145827374274831ecd179239a01,
  digestIn (numeral 79 0x726f6f743a6e6f7465732e7478743032636632346462613566623061333065323665383362326163356239653239653162313631653563316661373432356537333034333336323933386239383234)
    0xecd7d3bf97a1ddf099e0d880131efdbdab5cc5f99880601f90d03ed5daa02881,
  digestIn (numeral 14 0x726f6f743a6e6f7465732e747874)
    0xd4c17acf05803eba06a649370f82265b102cae36d8cce5582d006805540ee495]

theorem seals_numerals : seals = numeralSeals := by
  unfold seals numeralSeals
  simp only [List.cons.injEq,and_true]
  refine ⟨?_,?_,?_,?_,?_⟩
  all_goals
    apply sealOf_eq
    · exact lit_numeral _ (by decide)
    · exact unhex_numeral _ (by decide)
    · exact unhex_numeral _ (by decide)

theorem digests_numerals : digests = numeralDigests := by
  unfold digests numeralDigests
  simp only [List.cons.injEq,and_true]
  exact ⟨digestOf_eq (lit_numeral _ (by decide)) (unhex_numeral _ (by decide)),
    digestOf_eq (lit_numeral _ (by decide)) (unhex_numeral _ (by decide)),
    digestOf_eq (unhex_numeral _ (by decide)) (unhex_numeral _ (by decide)),
    digestOf_eq (unhex_numeral _ (by decide)) (unhex_numeral _ (by decide +kernel)),
    digestOf_eq (lit_numeral _ (by decide +kernel)) (unhex_numeral _ (by decide)),
    digestOf_eq (lit_numeral _ (by decide)) (unhex_numeral _ (by decide +kernel))⟩

theorem numeralSeals_consistent : Consistent numeralSeals :=
  ⟨by decide,by decide +kernel,by decide +kernel⟩

theorem seals_consistent : Consistent seals := seals_numerals ▸ numeralSeals_consistent

def sample : Primitives := primitives digests seals seals_consistent

/-- ASCII text as Windows converts it. -/
def ascii : Windows where
  multiByteToWideChar s := if s.all (· < 128) then some (s.map (fun c => c.toUInt16)) else none
  wideCharToMultiByte s := if s.all (· < 128) then some (s.map (fun c => c.toUInt8)) else none
  towlower c := if 65 ≤ c && c ≤ 90 then c + 32 else c

def documents : List Json := [
  .obj [(lit "laptop",.num 1)],
  .obj [(lit "relative_path",.str (lit "root:notes.txt"))],
  .obj [(lit "relative_path",.str (lit "notes.txt"))]]

def parse (text : Str) : Option Json := documents.find? (fun json => json.dumpText = text)

def platform : Engine.Platform := ⟨sample,ascii,parse⟩

def laptop : Engine.Device := ⟨masterKey,lit "laptop",lit "Laptop",1000000,[]⟩

/-- A database with the folder root `C:\notes`. -/
def rooted : LocalDb := LocalDb.empty.addSyncRoot ascii (lit "home") (wlit "C:\\notes") true

/-- The sealed metadata of the path `notes.txt`. -/
def notesMetadata : Str :=
  lit "TlBTMQEDAwMDAwMDAwMDAwN5Y7gSIMXOk4UNS1VAq4DTlWlOs2fzJn-oOFkOrN48JSB0mJ-unU-f9sUyP3k"

/-- The answer of `getFile` for a deleted `notes.txt`. -/
def notesTombstone : Engine.ApiResponse :=
  ⟨true,200,.obj [(lit "version",.num 2),(lit "deleted",.bool true),(lit "encrypted_metadata",.str notesMetadata)]⟩

/-- Every I/O call succeeds. -/
def workingIo : Engine.ApplyIo := ⟨true,true,⟨0,true⟩,.replaced,.replaced,.replaced⟩

/-! ### Two edits of one text and their merge -/

def baseText : Str := lit "one\ntwo\nthree\n"
def remoteEdit : Str := lit "one\ntwo\nTHREE\n"
def localEdit : Str := lit "ONE\ntwo\nthree\n"
def bothEdits : Str := lit "ONE\ntwo\nTHREE\n"

def editSeals : List KnownSeal := [
  sealOf 2 "\x7b\"relative_path\":\"root:notes.txt\"\x7d" "metadata"
    "e00a6bded5b84532bde0fd88520db23126cbdd03fb20429f2d2ab470591f31b6f285" "a90d607d38be8e606f4d20aafd68c15f",
  sealOf 6 "one\ntwo\nthree\n" "file" "533688830dc2c29baf0cf7db2269" "1b60b54f4420a53744d24a6ab0fe329c",
  sealOf 7 "one\ntwo\nTHREE\n" "file" "6004c3561b78b8fe92d541c5c55b" "aecafe993931143a2620d54b868437fe",
  sealOf 8 "ONE\ntwo\nthree\n" "file" "650d9ddc99f359fca43f29fde597" "7788b191594d6bd0e06ff5660d6b2a85",
  sealOf 9 "ONE\ntwo\nTHREE\n" "file" "fc564d31f3e82cae854162bcee9c" "5691b2a47df394c0c2e9f868633c195f"]

def editDigests : List (Bytes × Digest) := [
  digestOf (lit "root:notes.txt") "d4c17acf05803eba06a649370f82265b102cae36d8cce5582d006805540ee495",
  digestOf baseText "b6285c57e8797db5d4c51c80d6f11938afda9b11c6a003549709189e9b4b92a2",
  digestOf remoteEdit "0ad8e86f016ae334711de042229021042710bd85543c7a8d2dee1fbd205d04b7",
  digestOf localEdit "d90163630a642f82e3a76343780cc2503051e6b76a3f94060356324237ae6076",
  digestOf bothEdits "1aaf5092e0aae0bd85ef5e0c01a58ca5d10742063922071172900b0f4ebd04a3",
  digestOf (unhex "4e505331010606060606060606060606061b60b54f4420a53744d24a6ab0fe329c533688830dc2c29baf0cf7db2269")
    "d9e0c41c6e88df5b1aaa47717c6319cb12e33f45f41ea7b6fc5ec4ac154aff9d",
  digestOf (unhex "4e50533101070707070707070707070707aecafe993931143a2620d54b868437fe6004c3561b78b8fe92d541c5c55b")
    "7addf682dd29a91008ef1073f7386fc88060a62515419ec88407ad4a5ebb9d5f",
  digestOf (unhex "4e505331010808080808080808080808087788b191594d6bd0e06ff5660d6b2a85650d9ddc99f359fca43f29fde597")
    "3d3e54ddaf97a3e1f76ef24272239d2c8589bdd4e9a207c22909180a5dd7994b",
  digestOf (unhex "4e505331010909090909090909090909095691b2a47df394c0c2e9f868633c195ffc564d31f3e82cae854162bcee9c")
    "e1f595d8ba2fd021923c96b477503981ab6be691a52c71591c93a73ece11bd8b",
  digestOf (lit "root:notes.txt1d90163630a642f82e3a76343780cc2503051e6b76a3f94060356324237ae6076")
    "7d88f0684251fcb97975d65f36bc8a9a2d75330e3eb2e699c0269bb0426073f5",
  digestOf (lit "root:notes.txt21aaf5092e0aae0bd85ef5e0c01a58ca5d10742063922071172900b0f4ebd04a3")
    "ac9075865346448de7b487bc4cf43dd8b55e278af555085a4b0cbc2b6f73e12f"]

def numeralEditSeals : List KnownSeal := [
  sealIn 2 "metadata" (numeral 34 0x7b2272656c61746976655f70617468223a22726f6f743a6e6f7465732e747874227d)
    (numeral 34 0xe00a6bded5b84532bde0fd88520db23126cbdd03fb20429f2d2ab470591f31b6f285) 0xa90d607d38be8e606f4d20aafd68c15f,
  sealIn 6 "file" (numeral 14 0x6f6e650a74776f0a74687265650a)
    (numeral 14 0x533688830dc2c29baf0cf7db2269) 0x1b60b54f4420a53744d24a6ab0fe329c,
  sealIn 7 "file" (numeral 14 0x6f6e650a74776f0a54485245450a)
    (numeral 14 0x6004c3561b78b8fe92d541c5c55b) 0xaecafe993931143a2620d54b868437fe,
  sealIn 8 "file" (numeral 14 0x4f4e450a74776f0a74687265650a)
    (numeral 14 0x650d9ddc99f359fca43f29fde597) 0x7788b191594d6bd0e06ff5660d6b2a85,
  sealIn 9 "file" (numeral 14 0x4f4e450a74776f0a54485245450a)
    (numeral 14 0xfc564d31f3e82cae854162bcee9c) 0x5691b2a47df394c0c2e9f868633c195f]

def numeralEditDigests : List (Bytes × Digest) := [
  digestIn (numeral 14 0x726f6f743a6e6f7465732e747874)
    0xd4c17acf05803eba06a649370f82265b102cae36d8cce5582d006805540ee495,
  digestIn (numeral 14 0x6f6e650a74776f0a74687265650a)
    0xb6285c57e8797db5d4c51c80d6f11938afda9b11c6a003549709189e9b4b92a2,
  digestIn (numeral 14 0x6f6e650a74776f0a54485245450a)
    0x0ad8e86f016ae334711de042229021042710bd85543c7a8d2dee1fbd205d04b7,
  digestIn (numeral 14 0x4f4e450a74776f0a74687265650a)
    0xd90163630a642f82e3a76343780cc2503051e6b76a3f94060356324237ae6076,
  digestIn (numeral 14 0x4f4e450a74776f0a54485245450a)
    0x1aaf5092e0aae0bd85ef5e0c01a58ca5d10742063922071172900b0f4ebd04a3,
  digestIn (numeral 47 0x4e505331010606060606060606060606061b60b54f4420a53744d24a6ab0fe329c533688830dc2c29baf0cf7db2269)
    0xd9e0c41c6e88df5b1aaa47717c6319cb12e33f45f41ea7b6fc5ec4ac154aff9d,
  digestIn (numeral 47 0x4e50533101070707070707070707070707aecafe993931143a2620d54b868437fe6004c3561b78b8fe92d541c5c55b)
    0x7addf682dd29a91008ef1073f7386fc88060a62515419ec88407ad4a5ebb9d5f,
  digestIn (numeral 47 0x4e505331010808080808080808080808087788b191594d6bd0e06ff5660d6b2a85650d9ddc99f359fca43f29fde597)
    0x3d3e54ddaf97a3e1f76ef24272239d2c8589bdd4e9a207c22909180a5dd7994b,
  digestIn (numeral 47 0x4e505331010909090909090909090909095691b2a47df394c0c2e9f868633c195ffc564d31f3e82cae854162bcee9c)
    0xe1f595d8ba2fd021923c96b477503981ab6be691a52c71591c93a73ece11bd8b,
  digestIn (numeral 79 0x726f6f743a6e6f7465732e7478743164393031363336333061363432663832653361373633343337383063633235303330353165366237366133663934303630333536333234323337616536303736)
    0x7d88f0684251fcb97975d65f36bc8a9a2d75330e3eb2e699c0269bb0426073f5,
  digestIn (numeral 79 0x726f6f743a6e6f7465732e7478743231616166353039326530616165306264383565663565306330316135386361356431303734323036333932323037313137323930306230663465626430346133)
    0xac9075865346448de7b487bc4cf43dd8b55e278af555085a4b0cbc2b6f73e12f]

theorem editSeals_numerals : editSeals = numeralEditSeals := by
  unfold editSeals numeralEditSeals
  simp only [List.cons.injEq,and_true]
  refine ⟨?_,?_,?_,?_,?_⟩
  all_goals
    apply sealOf_eq
    · exact lit_numeral _ (by decide +kernel)
    · exact unhex_numeral _ (by decide +kernel)
    · exact unhex_numeral _ (by decide)

theorem editDigests_numerals : editDigests = numeralEditDigests := by
  unfold editDigests numeralEditDigests
  simp only [List.cons.injEq,and_true]
  exact ⟨digestOf_eq (lit_numeral _ (by decide)) (unhex_numeral _ (by decide +kernel)),
    digestOf_eq (lit_numeral _ (by decide +kernel)) (unhex_numeral _ (by decide +kernel)),
    digestOf_eq (lit_numeral _ (by decide +kernel)) (unhex_numeral _ (by decide)),
    digestOf_eq (lit_numeral _ (by decide)) (unhex_numeral _ (by decide)),
    digestOf_eq (lit_numeral _ (by decide +kernel)) (unhex_numeral _ (by decide +kernel)),
    digestOf_eq (unhex_numeral _ (by decide +kernel)) (unhex_numeral _ (by decide +kernel)),
    digestOf_eq (unhex_numeral _ (by decide +kernel)) (unhex_numeral _ (by decide +kernel)),
    digestOf_eq (unhex_numeral _ (by decide +kernel)) (unhex_numeral _ (by decide)),
    digestOf_eq (unhex_numeral _ (by decide)) (unhex_numeral _ (by decide)),
    digestOf_eq (lit_numeral _ (by decide +kernel)) (unhex_numeral _ (by decide +kernel)),
    digestOf_eq (lit_numeral _ (by decide +kernel)) (unhex_numeral _ (by decide +kernel))⟩

theorem numeralEditSeals_consistent : Consistent numeralEditSeals :=
  ⟨by decide +kernel,by decide +kernel,by decide +kernel⟩

theorem editSeals_consistent : Consistent editSeals := editSeals_numerals ▸ numeralEditSeals_consistent

def editPlatform : Engine.Platform := ⟨primitives editDigests editSeals editSeals_consistent,ascii,parse⟩

/-- The identifier of the edited file. -/
def notesId : Str := lit "11111111-1111-4111-8111-111111111111"

/-- The row of `notes.txt` as it was stored with a version of `baseText`. -/
def notesRow (version : Int) : LocalFileState :=
  let hash := lit "b6285c57e8797db5d4c51c80d6f11938afda9b11c6a003549709189e9b4b92a2"
  ⟨notesId,lit "home",lit "root:notes.txt",hash,hash,version,.empty,false,0⟩

theorem notesMetadata_numerals : notesMetadata =
    numeral 83 0x546c42544d51454441774d4441774d4441774d4441774e3559376753494d584f6b34554e53315641713444546c576c4f7332667a4a6e2d6f4f466b4f724e34384a5342306d4a2d756e552d663973557950336b :=
  lit_numeral _ (by decide +kernel)

def numeralPlatform : Engine.Platform :=
  ⟨primitives numeralDigests numeralSeals numeralSeals_consistent,ascii,parse⟩

def numeralEditPlatform : Engine.Platform :=
  ⟨primitives numeralEditDigests numeralEditSeals numeralEditSeals_consistent,ascii,parse⟩

theorem sample_numerals : sample = primitives numeralDigests numeralSeals numeralSeals_consistent := by
  unfold sample
  simp only [digests_numerals,seals_numerals]

theorem platform_numerals : platform = numeralPlatform := by
  rw [platform,sample_numerals]
  rfl

theorem editPlatform_numerals : editPlatform = numeralEditPlatform := by
  unfold editPlatform numeralEditPlatform
  simp only [editDigests_numerals,editSeals_numerals]

end KnownAnswers
end NPSync
