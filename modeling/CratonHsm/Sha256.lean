import Mathlib.Tactic.Ring

/-!
# HMAC-SHA256

An executable HMAC-SHA256, so that runs of a protocol that authenticates its messages
can be evaluated on concrete inputs.  Words are natural numbers below `2 ^ 32`, which
the kernel computes with directly.
-/

namespace Sha256

/-- A word from four bytes. -/
def word : Nat := 2 ^ 32

/-- Rotation to the right. -/
def rotr (x n : Nat) : Nat := (x >>> n) ||| ((x <<< (32 - n)) % word)

/-- The round constants. -/
def roundConstants : List Nat :=
  [0x428a2f98, 0x71374491, 0xb5c0fbcf, 0xe9b5dba5, 0x3956c25b, 0x59f111f1, 0x923f82a4, 0xab1c5ed5,
   0xd807aa98, 0x12835b01, 0x243185be, 0x550c7dc3, 0x72be5d74, 0x80deb1fe, 0x9bdc06a7, 0xc19bf174,
   0xe49b69c1, 0xefbe4786, 0x0fc19dc6, 0x240ca1cc, 0x2de92c6f, 0x4a7484aa, 0x5cb0a9dc, 0x76f988da,
   0x983e5152, 0xa831c66d, 0xb00327c8, 0xbf597fc7, 0xc6e00bf3, 0xd5a79147, 0x06ca6351, 0x14292967,
   0x27b70a85, 0x2e1b2138, 0x4d2c6dfc, 0x53380d13, 0x650a7354, 0x766a0abb, 0x81c2c92e, 0x92722c85,
   0xa2bfe8a1, 0xa81a664b, 0xc24b8b70, 0xc76c51a3, 0xd192e819, 0xd6990624, 0xf40e3585, 0x106aa070,
   0x19a4c116, 0x1e376c08, 0x2748774c, 0x34b0bcb5, 0x391c0cb3, 0x4ed8aa4a, 0x5b9cca4f, 0x682e6ff3,
   0x748f82ee, 0x78a5636f, 0x84c87814, 0x8cc70208, 0x90befffa, 0xa4506ceb, 0xbef9a3f7, 0xc67178f2]

/-- The eight working variables. -/
structure Digest where
  a : Nat
  b : Nat
  c : Nat
  d : Nat
  e : Nat
  f : Nat
  g : Nat
  h : Nat

/-- The initial state. -/
def initial : Digest :=
  ⟨0x6a09e667, 0xbb67ae85, 0x3c6ef372, 0xa54ff53a, 0x510e527f, 0x9b05688c, 0x1f83d9ab, 0x5be0cd19⟩

/-- One round per constant; the schedule is a window of sixteen words that loses its
first word and gains the next one in each round. -/
def rounds : List Nat → List Nat → Digest → Digest
  | k :: ks, w :: rest, s =>
    let ch := (s.e &&& s.f) ^^^ ((word - 1 - s.e) &&& s.g)
    let maj := (s.a &&& s.b) ^^^ (s.a &&& s.c) ^^^ (s.b &&& s.c)
    let t₁ := (s.h + (rotr s.e 6 ^^^ rotr s.e 11 ^^^ rotr s.e 25) + ch + k + w) % word
    let t₂ := ((rotr s.a 2 ^^^ rotr s.a 13 ^^^ rotr s.a 22) + maj) % word
    let w₁ := rest.getD 0 0
    let w₁₄ := rest.getD 13 0
    let next := ((rotr w₁₄ 17 ^^^ rotr w₁₄ 19 ^^^ (w₁₄ >>> 10)) + rest.getD 8 0 +
      (rotr w₁ 7 ^^^ rotr w₁ 18 ^^^ (w₁ >>> 3)) + w) % word
    rounds ks (rest ++ [next])
      ⟨(t₁ + t₂) % word, s.a, s.b, s.c, (s.d + t₁) % word, s.e, s.f, s.g⟩
  | _, _, s => s

/-- The compression of a block. -/
def compress (s : Digest) (block : List Nat) : Digest :=
  let r := rounds roundConstants block s
  ⟨(s.a + r.a) % word, (s.b + r.b) % word, (s.c + r.c) % word, (s.d + r.d) % word,
   (s.e + r.e) % word, (s.f + r.f) % word, (s.g + r.g) % word, (s.h + r.h) % word⟩

/-- Big-endian words. -/
def toWords : List UInt8 → List Nat
  | a :: b :: c :: d :: rest =>
    (((a.toNat * 256 + b.toNat) * 256 + c.toNat) * 256 + d.toNat) :: toWords rest
  | _ => []

def wordBytes (w : Nat) : List UInt8 :=
  [.ofNat (w >>> 24), .ofNat (w >>> 16), .ofNat (w >>> 8), .ofNat w]

/-- The message, a one bit, zeros up to a block boundary, and the length in bits. -/
def pad (msg : List UInt8) : List UInt8 :=
  msg ++ 0x80 :: List.replicate ((119 - msg.length % 64) % 64) 0 ++
    wordBytes (msg.length * 8 / word) ++ wordBytes (msg.length * 8)

/-- The state after the blocks. -/
def hashBlocks : Nat → Digest → List Nat → Digest
  | 0, s, _ => s
  | n + 1, s, ws => hashBlocks n (compress s (ws.take 16)) (ws.drop 16)

/-- SHA-256. -/
def hash (msg : List UInt8) : List UInt8 :=
  let padded := pad msg
  let s := hashBlocks (padded.length / 64) initial (toWords padded)
  [s.a, s.b, s.c, s.d, s.e, s.f, s.g, s.h].flatMap wordBytes

theorem hash_length (msg : List UInt8) : (hash msg).length = 32 := rfl

/-- HMAC for keys of at most one block. -/
def hmac (key msg : List UInt8) : List UInt8 :=
  let block := key ++ List.replicate (64 - key.length) 0
  hash (block.map (· ^^^ 0x5c) ++ hash (block.map (· ^^^ 0x36) ++ msg))

/-- The keyed digest of `what do ya want for nothing?` under `Jefe`. -/
example : hmac [0x4a, 0x65, 0x66, 0x65]
    [0x77, 0x68, 0x61, 0x74, 0x20, 0x64, 0x6f, 0x20, 0x79, 0x61, 0x20, 0x77, 0x61, 0x6e, 0x74,
     0x20, 0x66, 0x6f, 0x72, 0x20, 0x6e, 0x6f, 0x74, 0x68, 0x69, 0x6e, 0x67, 0x3f] =
    [0x5b, 0xdc, 0xc1, 0x46, 0xbf, 0x60, 0x75, 0x4e, 0x6a, 0x04, 0x24, 0x26, 0x08, 0x95, 0x75, 0xc7,
     0x5a, 0x00, 0x3f, 0x08, 0x9d, 0x27, 0x39, 0x83, 0x9d, 0xec, 0x58, 0xb9, 0x64, 0xec, 0x38,
     0x43] := by
  decide +kernel

/-! ## Evaluation

The same function in a form that the kernel evaluates faster: the window is held in sixteen
variables, and the arithmetic is written with the operations the kernel computes. -/

def wordMod (x : Nat) : Nat := Nat.mod x 0x100000000

/-- `rotr`, with the complement of the distance. -/
def rotate (x n m : Nat) : Nat := Nat.lor (Nat.shiftRight x n) (wordMod (Nat.shiftLeft x m))

def xor₃ (x y z : Nat) : Nat := Nat.xor (Nat.xor x y) z

def windowRounds : List Nat → (w₀ w₁ w₂ w₃ w₄ w₅ w₆ w₇ w₈ w₉ w₁₀ w₁₁ w₁₂ w₁₃ w₁₄ w₁₅ : Nat) →
    Digest → Digest
  | k :: ks, w₀, w₁, w₂, w₃, w₄, w₅, w₆, w₇, w₈, w₉, w₁₀, w₁₁, w₁₂, w₁₃, w₁₄, w₁₅, s =>
    let ch := Nat.xor (Nat.land s.e s.f) (Nat.land (Nat.sub 0xffffffff s.e) s.g)
    let maj := xor₃ (Nat.land s.a s.b) (Nat.land s.a s.c) (Nat.land s.b s.c)
    let mix₁ := xor₃ (rotate s.e 6 26) (rotate s.e 11 21) (rotate s.e 25 7)
    let mix₂ := xor₃ (rotate s.a 2 30) (rotate s.a 13 19) (rotate s.a 22 10)
    let t₁ := wordMod (Nat.add (Nat.add (Nat.add (Nat.add s.h mix₁) ch) k) w₀)
    let t₂ := wordMod (Nat.add mix₂ maj)
    let next := wordMod (Nat.add (Nat.add (Nat.add
      (xor₃ (rotate w₁₄ 17 15) (rotate w₁₄ 19 13) (Nat.shiftRight w₁₄ 10)) w₉)
      (xor₃ (rotate w₁ 7 25) (rotate w₁ 18 14) (Nat.shiftRight w₁ 3))) w₀)
    windowRounds ks w₁ w₂ w₃ w₄ w₅ w₆ w₇ w₈ w₉ w₁₀ w₁₁ w₁₂ w₁₃ w₁₄ w₁₅ next
      ⟨wordMod (Nat.add t₁ t₂), s.a, s.b, s.c, wordMod (Nat.add s.d t₁), s.e, s.f, s.g⟩
  | [], _, _, _, _, _, _, _, _, _, _, _, _, _, _, _, _, s => s

/-- The window of `rounds` stays at sixteen words. -/
theorem rounds_window (ks : List Nat)
    (w₀ w₁ w₂ w₃ w₄ w₅ w₆ w₇ w₈ w₉ w₁₀ w₁₁ w₁₂ w₁₃ w₁₄ w₁₅ : Nat) (s : Digest) :
    rounds ks [w₀, w₁, w₂, w₃, w₄, w₅, w₆, w₇, w₈, w₉, w₁₀, w₁₁, w₁₂, w₁₃, w₁₄, w₁₅] s =
      windowRounds ks w₀ w₁ w₂ w₃ w₄ w₅ w₆ w₇ w₈ w₉ w₁₀ w₁₁ w₁₂ w₁₃ w₁₄ w₁₅ s := by
  induction ks generalizing w₀ w₁ w₂ w₃ w₄ w₅ w₆ w₇ w₈ w₉ w₁₀ w₁₁ w₁₂ w₁₃ w₁₄ w₁₅ s with
  | nil => rfl
  | cons k ks ih => exact ih _ _ _ _ _ _ _ _ _ _ _ _ _ _ _ _ _

def windowCompress (s : Digest) (block : List Nat) : Digest :=
  match block with
  | [w₀, w₁, w₂, w₃, w₄, w₅, w₆, w₇, w₈, w₉, w₁₀, w₁₁, w₁₂, w₁₃, w₁₄, w₁₅] =>
    let r := windowRounds roundConstants w₀ w₁ w₂ w₃ w₄ w₅ w₆ w₇ w₈ w₉ w₁₀ w₁₁ w₁₂ w₁₃ w₁₄ w₁₅ s
    ⟨wordMod (Nat.add s.a r.a), wordMod (Nat.add s.b r.b), wordMod (Nat.add s.c r.c),
      wordMod (Nat.add s.d r.d), wordMod (Nat.add s.e r.e), wordMod (Nat.add s.f r.f),
      wordMod (Nat.add s.g r.g), wordMod (Nat.add s.h r.h)⟩
  | _ => compress s block

theorem compress_eq (s : Digest) (block : List Nat) :
    compress s block = windowCompress s block := by
  unfold windowCompress
  split
  · unfold compress
    rw [rounds_window]
    rfl
  · rfl

def windowHashBlocks : Nat → Digest → List Nat → Digest
  | 0, s, _ => s
  | n + 1, s, ws => windowHashBlocks n (windowCompress s (ws.take 16)) (ws.drop 16)

theorem hashBlocks_eq (n : Nat) (s : Digest) (ws : List Nat) :
    hashBlocks n s ws = windowHashBlocks n s ws := by
  induction n generalizing s ws with
  | zero => rfl
  | succ n ih => rw [hashBlocks, windowHashBlocks, ih, compress_eq]

def windowHash (msg : List UInt8) : List UInt8 :=
  let padded := pad msg
  let s := windowHashBlocks (padded.length / 64) initial (toWords padded)
  [s.a, s.b, s.c, s.d, s.e, s.f, s.g, s.h].flatMap wordBytes

theorem hash_eq (msg : List UInt8) : hash msg = windowHash msg := by
  simp only [hash, windowHash, hashBlocks_eq]

def windowHmac (key msg : List UInt8) : List UInt8 :=
  let block := key ++ List.replicate (64 - key.length) 0
  windowHash (block.map (· ^^^ 0x5c) ++ windowHash (block.map (· ^^^ 0x36) ++ msg))

theorem hmac_eq : hmac = windowHmac := by
  funext key msg
  simp only [hmac, windowHmac, hash_eq]

end Sha256
