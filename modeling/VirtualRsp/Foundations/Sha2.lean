import Mathlib.Data.Nat.Find
import VirtualRsp.Foundations.BlockHash
import VirtualRsp.Foundations.Der

/-!
# SHA-256

The hash function as the standard defines it, over words of 32 bits: the constants are the first
bits of the fractional parts of the roots of the first primes (`rootBits`), the message schedule is
a recursion (`schedule`), and the digest of a message is the state behind the blocks of the padded
message (`sha256`).
-/

namespace VirtualRsp.Sha2

/-- A word. -/
abbrev Word := BitVec 32

/-! ## Constants -/

/-- The largest number whose power with exponent `n` is at most `m`. -/
def root (n m : ℕ) : ℕ := Nat.findGreatest (fun r => r ^ n ≤ m) m

theorem root_eq {n m r : ℕ} (hn : 0 < n) (hle : r ^ n ≤ m) (hlt : m < (r + 1) ^ n) :
    root n m = r := by
  have hrm : r ≤ m := le_trans (Nat.le_self_pow hn.ne' r) hle
  refine Nat.findGreatest_eq_iff.2 ⟨hrm, fun _ => hle, fun k hrk _ hk => ?_⟩
  have := Nat.pow_le_pow_left (show r + 1 ≤ k from hrk) n
  omega

/-- The first 32 bits of the fractional part of a root of a number. -/
def rootBits (n p : ℕ) : Word := BitVec.ofNat 32 (root n (p * 2 ^ (32 * n)))

/-- Whether a number is prime, by trial division. -/
def isPrime (p : ℕ) : Bool := 2 ≤ p && (List.range p).all fun d => d < 2 || p % d ≠ 0

/-- The primes below 312, which are the first 64. -/
def primes : List ℕ := (List.range 312).filter isPrime

/-- The constant of a round. -/
def roundConstant (t : ℕ) : Word := rootBits 3 (primes.getD t 0)

/-! ## Compression -/

/-- The working variables, and the hash value after a block. -/
structure State where
  a : Word
  b : Word
  c : Word
  d : Word
  e : Word
  f : Word
  g : Word
  h : Word

/-- The initial hash value. -/
def initial : State :=
  ⟨rootBits 2 2, rootBits 2 3, rootBits 2 5, rootBits 2 7, rootBits 2 11, rootBits 2 13,
    rootBits 2 17, rootBits 2 19⟩

/-- The addition of hash values. -/
def State.add (x y : State) : State :=
  ⟨x.a + y.a, x.b + y.b, x.c + y.c, x.d + y.d, x.e + y.e, x.f + y.f, x.g + y.g, x.h + y.h⟩

/-- A choice between the bits of two words. -/
def choose (x y z : Word) : Word := (x &&& y) ^^^ (~~~x &&& z)

/-- The majority of the bits of three words. -/
def majority (x y z : Word) : Word := (x &&& y) ^^^ (x &&& z) ^^^ (y &&& z)

def bigSigma0 (x : Word) : Word := x.rotateRight 2 ^^^ x.rotateRight 13 ^^^ x.rotateRight 22

def bigSigma1 (x : Word) : Word := x.rotateRight 6 ^^^ x.rotateRight 11 ^^^ x.rotateRight 25

def smallSigma0 (x : Word) : Word := x.rotateRight 7 ^^^ x.rotateRight 18 ^^^ (x >>> 3)

def smallSigma1 (x : Word) : Word := x.rotateRight 17 ^^^ x.rotateRight 19 ^^^ (x >>> 10)

/-- A word of a block. -/
def word (block : Bytes) (t : ℕ) : Word :=
  BitVec.ofNat 32 (Der.ofBe 0 ((block.drop (4 * t)).take 4))

/-- The message schedule of a block. -/
def schedule (block : Bytes) (t : ℕ) : Word :=
  if t < 16 then word block t
  else smallSigma1 (schedule block (t - 2)) + schedule block (t - 7) +
    smallSigma0 (schedule block (t - 15)) + schedule block (t - 16)

/-- A round. -/
def round (w : ℕ → Word) (s : State) (t : ℕ) : State :=
  let t1 := s.h + bigSigma1 s.e + choose s.e s.f s.g + roundConstant t + w t
  let t2 := bigSigma0 s.a + majority s.a s.b s.c
  ⟨t1 + t2, s.a, s.b, s.c, s.d + t1, s.e, s.f, s.g⟩

/-- The hash value after one more block. -/
def compress (s : State) (block : Bytes) : State :=
  ((List.range 64).foldl (round (schedule block)) s).add s

/-! ## Messages -/

/-- The bytes of a hash value. -/
def State.octets (s : State) : Bytes :=
  [s.a, s.b, s.c, s.d, s.e, s.f, s.g, s.h].flatMap fun w => Der.beBytes 4 w.toNat

/-- A message with its padding: the byte `80`, zeros, and the number of bits in 64 bits. -/
def padded (message : Bytes) : Bytes :=
  message ++ BlockHash.padding 64 0x80 0x00 (Der.beBytes 8 (8 * message.length)) message.length

/-- The digest of a message. -/
def sha256 (message : Bytes) : Bytes :=
  (BlockHash.chain compress 64 initial (padded message)).octets

theorem length_sha256 (message : Bytes) : (sha256 message).length = 32 := by
  simp [sha256, State.octets, Der.length_beBytes]

/-! ## The schedule -/

theorem schedule_of_lt {block : Bytes} {t : ℕ} (h : t < 16) : schedule block t = word block t := by
  rw [schedule, if_pos h]

theorem schedule_of_le {block : Bytes} {t : ℕ} (h : 16 ≤ t) :
    schedule block t = smallSigma1 (schedule block (t - 2)) + schedule block (t - 7) +
      smallSigma0 (schedule block (t - 15)) + schedule block (t - 16) := by
  rw [schedule, if_neg (Nat.not_lt.2 h)]

end VirtualRsp.Sha2
