import NPSync.Engine.Payload
import NPSync.KnownAnswers

/-! What the idempotency key of an upload is computed from. Path, version and digest
are joined without a separator, so digits can belong to the path or to the version. -/
namespace NPSync.Engine

/-- The text that the outer digest of `buildFilePayload` gets. -/
def keyedText (prim : Primitives) (relPath : Str) (baseVersion : Int) (plaintext : Bytes) : Str :=
  relPath ++ decimal baseVersion ++ Crypto.sha256Hex prim plaintext

/-- The second path has digits more at its end, which the first version has at its front. -/
def Shifted (relPath : Str) (baseVersion : Int) (relPath' : Str) (baseVersion' : Int) : Prop :=
  ∃ digits, digits ≠ [] ∧ relPath' = relPath ++ digits ∧ decimal baseVersion = digits ++ decimal baseVersion'

theorem payload_keyed (plat : Platform) (dev : Device) (db : LocalDb) (relPath : Str) (plaintext : Bytes) (baseVersion : Int)
    (vv : VersionVector) (rnd : Random) (payload : Payload)
    (built : buildFilePayload plat dev db relPath plaintext baseVersion vv rnd = some payload) :
    payload.idempotencyKey = (Crypto.sha256Hex plat.prim (keyedText plat.prim relPath baseVersion plaintext)).take 36 := by
  obtain ⟨_,_,_,_,_,_,_,_,rfl⟩ := buildFilePayload_parts plat dev db relPath plaintext baseVersion vv rnd payload built
  rfl

theorem Shifted.same_text {relPath relPath' : Str} {baseVersion baseVersion' : Int} (prim : Primitives) (plaintext : Bytes)
    (shifted : Shifted relPath baseVersion relPath' baseVersion') :
    keyedText prim relPath baseVersion plaintext = keyedText prim relPath' baseVersion' plaintext := by
  obtain ⟨digits,-,rfl,front⟩ := shifted
  unfold keyedText
  rw [front,List.append_assoc relPath digits]

theorem Shifted.longer {relPath relPath' : Str} {baseVersion baseVersion' : Int}
    (shifted : Shifted relPath baseVersion relPath' baseVersion') : relPath.length < relPath'.length := by
  obtain ⟨digits,more,rfl,-⟩ := shifted
  rw [List.length_append]
  exact Nat.lt_add_of_pos_right (List.length_pos_of_ne_nil more)

theorem Shifted.ne {relPath relPath' : Str} {baseVersion baseVersion' : Int}
    (shifted : Shifted relPath baseVersion relPath' baseVersion') : relPath ≠ relPath' := by
  intro same
  exact absurd shifted.longer (same ▸ Nat.lt_irrefl _)

/-- Where a path and a number meet can be read in one way only, digits apart. -/
theorem joined_cases {relPath relPath' : Str} {baseVersion baseVersion' : Int} (natural : 0 ≤ baseVersion)
    (natural' : 0 ≤ baseVersion') (joined : relPath ++ decimal baseVersion = relPath' ++ decimal baseVersion') :
    (relPath = relPath' ∧ baseVersion = baseVersion') ∨ Shifted relPath baseVersion relPath' baseVersion' ∨
      Shifted relPath' baseVersion' relPath baseVersion := by
  rcases List.append_eq_append_iff.mp joined with ⟨digits,longer,front⟩ | ⟨digits,longer,front⟩
  · cases digits with
    | nil =>
      rw [List.append_nil] at longer
      exact .inl ⟨longer.symm,decimal_inj natural natural' front⟩
    | cons c rest => exact .inr (.inl ⟨c::rest,List.cons_ne_nil _ _,longer,front⟩)
  · cases digits with
    | nil =>
      rw [List.append_nil] at longer
      exact .inl ⟨longer,(decimal_inj natural' natural front).symm⟩
    | cons c rest => exact .inr (.inr ⟨c::rest,List.cons_ne_nil _ _,longer,front⟩)

/-- Different uploads feed different texts into the digest of the key, except when
they send the same content and the digits at the end of a path can be read as the
front of the other's version. -/
theorem uploads_keyed_apart_iff (plat : Platform) :
    (∀ dev db relPath plaintext baseVersion vv rnd payload,
      buildFilePayload plat dev db relPath plaintext baseVersion vv rnd = some payload →
      payload.idempotencyKey = (Crypto.sha256Hex plat.prim (keyedText plat.prim relPath baseVersion plaintext)).take 36) ∧
    ∀ relPath relPath' baseVersion baseVersion' plaintext plaintext', 0 ≤ baseVersion → 0 ≤ baseVersion' →
      (Crypto.sha256Hex plat.prim plaintext = Crypto.sha256Hex plat.prim plaintext' → plaintext = plaintext') →
      (((relPath,baseVersion,plaintext) ≠ (relPath',baseVersion',plaintext') →
          keyedText plat.prim relPath baseVersion plaintext ≠ keyedText plat.prim relPath' baseVersion' plaintext') ↔
        ¬(plaintext = plaintext' ∧
          (Shifted relPath baseVersion relPath' baseVersion' ∨ Shifted relPath' baseVersion' relPath baseVersion))) := by
  refine ⟨fun dev => payload_keyed plat dev,?_⟩
  intro relPath relPath' baseVersion baseVersion' plaintext plaintext' natural natural' apart
  constructor
  · rintro separated ⟨rfl,shifted⟩
    rcases shifted with shifted | shifted
    · exact separated (fun same => shifted.ne (congrArg Prod.fst same)) (shifted.same_text plat.prim plaintext)
    · exact separated (fun same => shifted.ne (congrArg Prod.fst same).symm) (shifted.same_text plat.prim plaintext).symm
  · intro unshifted different same
    have lengths : (Crypto.sha256Hex plat.prim plaintext).length = (Crypto.sha256Hex plat.prim plaintext').length := by
      rw [Crypto.sha256Hex_length,Crypto.sha256Hex_length]
    obtain ⟨joined,digests⟩ := List.append_inj' same lengths
    have content := apart digests
    rcases joined_cases natural natural' joined with ⟨path,version⟩ | shifted
    · exact different (by rw [path,version,content])
    · exact unshifted ⟨content,shifted⟩

theorem notes_and_todo_keyed_apart : keyedText KnownAnswers.sample (lit "home:notes.txt") 3 (lit "hello") ≠
    keyedText KnownAnswers.sample (lit "home:todos.txt") 3 (lit "hello") := by
  apply ((uploads_keyed_apart_iff KnownAnswers.platform).2 (lit "home:notes.txt") (lit "home:todos.txt") 3 3
    (lit "hello") (lit "hello") (by decide) (by decide) (fun _ => rfl)).mpr
  · rintro ⟨-,shifted | shifted⟩
    · exact absurd shifted.longer (by decide)
    · exact absurd shifted.longer (by decide)
  · decide

/-- Version 2 of `notes1` and version 12 of `notes`. -/
theorem numbered_note_collides :
    ¬∀ relPath relPath' baseVersion baseVersion' plaintext plaintext', 0 ≤ baseVersion → 0 ≤ baseVersion' →
      (Crypto.sha256Hex KnownAnswers.sample plaintext = Crypto.sha256Hex KnownAnswers.sample plaintext' → plaintext = plaintext') →
      (relPath,baseVersion,plaintext) ≠ (relPath',baseVersion',plaintext') →
      keyedText KnownAnswers.sample relPath baseVersion plaintext ≠ keyedText KnownAnswers.sample relPath' baseVersion' plaintext' := by
  intro separated
  apply separated (lit "home:notes1") (lit "home:notes") 2 12 [] [] (by decide) (by decide) (fun _ => rfl)
  · decide
  · decide

end NPSync.Engine
