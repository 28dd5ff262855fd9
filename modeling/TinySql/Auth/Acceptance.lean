import Mathlib.Logic.Equiv.Basic
import TinySql.Auth.Authenticator

/-!
# Which responses are accepted

The server undoes the XOR of the client, so that a response is accepted only with the digest of the
password under it. An empty response stands for the empty password.
-/

namespace TinySql.Authenticator

/-- The users of `getPasswordHash` with their passwords. -/
def passwordOf (username : Bytes) : Option Bytes :=
  if username = ascii "root" ∨ username = ascii "tiny" then some []
  else if username = ascii "test" then some (ascii "test")
  else if username = ascii "admin" then some (ascii "admin123")
  else none

/-- The hash has no collision among inputs of 20 bytes, and none among the passwords. -/
structure Distinguishes (sha1 : Bytes → Vector UInt8 20) : Prop where
  digests : ∀ a b : Vector UInt8 20, sha1 a.toList = sha1 b.toList → a = b
  passwords : ∀ username username' p p', passwordOf username = some p →
    passwordOf username' = some p' → sha1 p = sha1 p' → p = p'

theorem xorBytes_xorBytes {a b : Bytes} (same : a.length = b.length) :
    xorBytes (xorBytes a b) b = a := by
  induction a generalizing b with
  | nil => rfl
  | cons x a ih =>
      cases b with
      | nil => cases same
      | cons y b =>
          have rest := ih (Nat.succ.inj same)
          simp only [xorBytes, List.zipWith_cons_cons] at rest ⊢
          rw [rest, UInt8.xor_assoc, UInt8.xor_self, UInt8.xor_zero]

theorem xorBytes_eq_iff {a b c : Bytes} (left : a.length = b.length) (right : c.length = b.length) :
    xorBytes a b = c ↔ a = xorBytes c b := by
  constructor
  · rintro rfl
    exact (xorBytes_xorBytes left).symm
  · rintro rfl
    exact xorBytes_xorBytes right

theorem length_xorBytes {a b : Bytes} (same : a.length = b.length) :
    (xorBytes a b).length = b.length := by
  simp [xorBytes, same]

variable {sha1 : Bytes → Vector UInt8 20}

theorem Distinguishes.digest_eq_iff (distinguishes : Distinguishes sha1) {a : Bytes}
    {b : Vector UInt8 20} (length : a.length = 20) :
    (sha1 a).toList = (sha1 b.toList).toList ↔ a = b.toList := by
  constructor
  · intro same
    have digest : sha1 (Vector.mk a.toArray (by simpa using length)).toList = sha1 b.toList :=
      Vector.toList_inj.mp same
    exact congrArg Vector.toList (distinguishes.digests _ _ digest)
  · rintro rfl
    rfl

theorem doubleSha1_ne_nil (password : Bytes) : doubleSha1 sha1 password ≠ [] := by
  intro empty
  have length := congrArg List.length empty
  simp [doubleSha1] at length

theorem getPasswordHash_eq (username : Bytes) : getPasswordHash sha1 username =
    ((passwordOf username).map (doubleSha1 sha1)).getD [] := by
  unfold getPasswordHash passwordOf
  split_ifs <;> rfl

theorem passwordOf_root : passwordOf (ascii "root") = some [] := by decide

/-- An unknown user is never accepted, a password is accepted in the response that a client makes of
it and in no other, and the empty password is accepted in its own. -/
theorem authenticate_exact (distinguishes : Distinguishes sha1) (username : Bytes)
    (challenge : Vector UInt8 20) :
    (passwordOf username = none →
      ∀ response, authenticate sha1 username response challenge = false) ∧
    (∀ p, passwordOf username = some p → p ≠ [] → ∀ response,
      authenticate sha1 username response challenge = true ↔
        response = computeAuthResponse sha1 p challenge) ∧
    (passwordOf username = some [] →
      authenticate sha1 username (computeAuthResponse sha1 [] challenge) challenge = true) := by
  have stored := @getPasswordHash_eq sha1 username
  refine ⟨?_, ?_, ?_⟩
  · intro unknown response
    rw [unknown] at stored
    simp [authenticate, stored]
  · intro p known given response
    rw [known] at stored
    simp only [Option.map_some, Option.getD_some] at stored
    have length (v : Vector UInt8 20) : v.toList.length = 20 := by simp
    simp only [authenticate, stored, if_neg (doubleSha1_ne_nil p), computeAuthResponse, if_neg given]
    by_cases empty : response = []
    · -- The empty response would make the password collide with the empty one.
      have other : doubleSha1 sha1 p ≠ doubleSha1 sha1 [] := by
        intro same
        have digests := (distinguishes.digest_eq_iff (length _)).mp same
        exact given (distinguishes.passwords _ _ _ _ known passwordOf_root
          (Vector.toList_inj.mp digests))
      have longer : xorBytes (sha1 p).toList
          (sha1 (challenge.toList ++ (sha1 (sha1 p).toList).toList)).toList ≠ [] := by
        intro none
        have size := congrArg List.length none
        rw [length_xorBytes (by simp), length] at size
        cases size
      simp [empty, other, longer.symm]
    · rw [if_neg empty]
      by_cases size : response.length = 20
      · have undone := xorBytes_eq_iff (a := response) (c := (sha1 p).toList)
          (b := (sha1 (challenge.toList ++ doubleSha1 sha1 p)).toList) (by simp [size]) (by simp)
        have digest := distinguishes.digest_eq_iff (b := sha1 p) (a := xorBytes response
          (sha1 (challenge.toList ++ doubleSha1 sha1 p)).toList)
          (by rw [length_xorBytes (by simp [size]), length])
        rw [if_neg (not_not_intro size), decide_eq_true_eq]
        exact digest.trans undone
      · have other : response ≠ xorBytes (sha1 p).toList
            (sha1 (challenge.toList ++ (sha1 (sha1 p).toList).toList)).toList := by
          rintro rfl
          exact size (by rw [length_xorBytes (by simp), length])
        simp [size, other]
  · intro known
    rw [known] at stored
    have found : getPasswordHash sha1 username = doubleSha1 sha1 [] := stored
    simp [authenticate, computeAuthResponse, found, doubleSha1_ne_nil]

def sha1OfEmpty : Vector UInt8 20 :=
  #v[0xda, 0x39, 0xa3, 0xee, 0x5e, 0x6b, 0x4b, 0x0d, 0x32, 0x55,
    0xbf, 0xef, 0x95, 0x60, 0x18, 0x90, 0xaf, 0xd8, 0x07, 0x09]

def sha1Sha1OfEmpty : Vector UInt8 20 :=
  #v[0xbe, 0x1b, 0xde, 0xc0, 0xaa, 0x74, 0xb4, 0xdc, 0xb0, 0x79,
    0x94, 0x3e, 0x70, 0x52, 0x80, 0x96, 0xcc, 0xa9, 0x85, 0xf8]

def sha1OfTest : Vector UInt8 20 :=
  #v[0xa9, 0x4a, 0x8f, 0xe5, 0xcc, 0xb1, 0x9b, 0xa6, 0x1c, 0x4c,
    0x08, 0x73, 0xd3, 0x91, 0xe9, 0x87, 0x98, 0x2f, 0xbb, 0xd3]

def sha1Sha1OfTest : Vector UInt8 20 :=
  #v[0x94, 0xbd, 0xce, 0xbe, 0x19, 0x08, 0x3c, 0xe2, 0xa1, 0xf9,
    0x59, 0xfd, 0x02, 0xf9, 0x64, 0xc7, 0xaf, 0x4c, 0xfc, 0x29]

def sha1OfAdmin123 : Vector UInt8 20 :=
  #v[0xf8, 0x65, 0xb5, 0x36, 0x23, 0xb1, 0x21, 0xfd, 0x34, 0xee,
    0x54, 0x26, 0xc7, 0x92, 0xe5, 0xc3, 0x3a, 0xf8, 0xc2, 0x27]

def sha1OfZeroChallenge : Vector UInt8 20 :=
  #v[0x0c, 0x9a, 0x3c, 0x2e, 0x40, 0xe8, 0x6a, 0xe6, 0xb1, 0xa2,
    0xb9, 0xb2, 0x3e, 0x5f, 0x12, 0xe6, 0xd9, 0x5d, 0xef, 0xe7]

def zeroChallenge : Vector UInt8 20 := Vector.replicate 20 0

/-- SHA-1 on the inputs that a login of `test` hashes, and a permutation of the other digests. -/
def sampleSha1 (input : Bytes) : Vector UInt8 20 :=
  if input = [] then sha1OfEmpty
  else if input = ascii "test" then sha1OfTest
  else if input = ascii "admin123" then sha1OfAdmin123
  else if input = zeroChallenge.toList ++ sha1Sha1OfTest.toList then sha1OfZeroChallenge
  else if size : input.length = 20 then
    (Equiv.swap sha1OfEmpty sha1Sha1OfEmpty).trans (Equiv.swap sha1OfTest sha1Sha1OfTest)
      ⟨input.toArray, size⟩
  else Vector.replicate 20 0

theorem sampleSha1_digest (v : Vector UInt8 20) : sampleSha1 v.toList =
    (Equiv.swap sha1OfEmpty sha1Sha1OfEmpty).trans (Equiv.swap sha1OfTest sha1Sha1OfTest) v := by
  have size : v.toList.length = 20 := by simp
  have other (b : Bytes) (different : b.length ≠ 20) : v.toList ≠ b := by
    rintro rfl
    exact different size
  unfold sampleSha1
  rw [if_neg (other _ (by decide)), if_neg (other _ (by decide)), if_neg (other _ (by decide)),
    if_neg (other _ (by decide)), dif_pos size]
  rfl

theorem sampleSha1_distinguishes : Distinguishes sampleSha1 := by
  constructor
  · intro a b same
    rw [sampleSha1_digest, sampleSha1_digest] at same
    exact Equiv.injective _ same
  · intro username username' p p' known known' same
    have users (name q : Bytes) (found : passwordOf name = some q) :
        q ∈ [[], ascii "test", ascii "admin123"] := by
      unfold passwordOf at found
      split_ifs at found <;> cases found <;> decide
    have pairs : ∀ q ∈ [[], ascii "test", ascii "admin123"],
        ∀ q' ∈ [[], ascii "test", ascii "admin123"], sampleSha1 q = sampleSha1 q' → q = q' := by
      decide
    exact pairs p (users _ _ known) p' (users _ _ known') same

theorem authenticate_exact_test : passwordOf (ascii "test") = some (ascii "test") ∧
    ∀ response, authenticate sampleSha1 (ascii "test") response zeroChallenge = true ↔
      response = computeAuthResponse sampleSha1 (ascii "test") zeroChallenge :=
  ⟨by decide, (authenticate_exact sampleSha1_distinguishes (ascii "test") zeroChallenge).2.1 _
    (by decide) (by decide)⟩

end TinySql.Authenticator
