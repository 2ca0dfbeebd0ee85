import Mathlib.Data.List.Basic
import Mathlib.Data.List.Nodup
import Mathlib.Algebra.Order.Ring.Int

/-!
Byte strings of fixed-width values, and SHA-256 over a list of byte slices.

Machine integers are little-endian (`leBytes`), keys and hashes are written with
their most significant byte first (`beBytes`). `hashv` hashes the concatenation
of its slices.
-/

namespace ChainPay.Lib

abbrev Bytes := List UInt8

/-- The `n` low bytes of `v`, least significant first. -/
def leBytes : Nat → Nat → Bytes
  | 0, _ => []
  | n + 1, v => UInt8.ofNat v :: leBytes n (v / 256)

/-- The `n` low bytes of `v`, most significant first. -/
def beBytes (n v : Nat) : Bytes := (leBytes n v).reverse

/-- The number a byte string denotes, least significant byte first. -/
def ofLeBytes : Bytes → Nat
  | [] => 0
  | b :: bs => b.toNat + 256 * ofLeBytes bs

/-- The number a byte string denotes, most significant byte first. -/
def ofBeBytes (bs : Bytes) : Nat := ofLeBytes bs.reverse

@[simp] theorem leBytes_length (n v : Nat) : (leBytes n v).length = n := by
  induction n generalizing v with
  | zero => rfl
  | succ n ih => simp [leBytes, ih]

@[simp] theorem beBytes_length (n v : Nat) : (beBytes n v).length = n := by
  simp [beBytes]

/-- The bytes of a number fix it modulo their range. -/
theorem leBytes_inj {n v w : Nat} (h : leBytes n v = leBytes n w) :
    v % 256 ^ n = w % 256 ^ n := by
  induction n generalizing v w with
  | zero => simp [Nat.mod_one]
  | succ n ih =>
    rw [leBytes, leBytes, List.cons.injEq] at h
    obtain ⟨hlow, hhigh⟩ := h
    have hbyte : v % 256 = w % 256 := by
      have := congrArg UInt8.toNat hlow
      rwa [UInt8.toNat_ofNat', UInt8.toNat_ofNat'] at this
    have hrest := ih hhigh
    rw [Nat.pow_succ, Nat.mul_comm, Nat.mod_mul, Nat.mod_mul, hbyte, hrest]

theorem beBytes_inj {n v w : Nat} (h : beBytes n v = beBytes n w) :
    v % 256 ^ n = w % 256 ^ n :=
  leBytes_inj (List.reverse_injective h)

theorem ofLeBytes_leBytes (n v : Nat) : ofLeBytes (leBytes n v) = v % 256 ^ n := by
  induction n generalizing v with
  | zero => simp [leBytes, ofLeBytes, Nat.mod_one]
  | succ n ih =>
    have hbyte : (UInt8.ofNat v).toNat = v % 256 := UInt8.toNat_ofNat'
    rw [leBytes, ofLeBytes, ih, hbyte, Nat.pow_succ, Nat.mul_comm (256 ^ n), Nat.mod_mul]

theorem leBytes_mod (n v : Nat) : leBytes n (v % 256 ^ n) = leBytes n v := by
  induction n generalizing v with
  | zero => rfl
  | succ n ih =>
    have hlow : UInt8.ofNat (v % 256 ^ (n + 1)) = UInt8.ofNat v := by
      refine UInt8.toNat_inj.mp ?_
      have hmod : v % 256 ^ (n + 1) % 256 = v % 256 :=
        Nat.mod_mod_of_dvd v ⟨256 ^ n, Nat.pow_succ'⟩
      have hleft : (UInt8.ofNat (v % 256 ^ (n + 1))).toNat = v % 256 ^ (n + 1) % 256 :=
        UInt8.toNat_ofNat'
      have hright : (UInt8.ofNat v).toNat = v % 256 := UInt8.toNat_ofNat'
      rw [hleft, hright, hmod]
    have hhigh : v % 256 ^ (n + 1) / 256 = v / 256 % 256 ^ n := by
      rw [Nat.pow_succ', Nat.mod_mul_right_div_self]
    rw [leBytes, leBytes, hlow, hhigh, ih]

theorem leBytes_ofLeBytes (bs : Bytes) : leBytes bs.length (ofLeBytes bs) = bs := by
  induction bs with
  | nil => rfl
  | cons b bs ih =>
    have hlow : UInt8.ofNat (b.toNat + 256 * ofLeBytes bs) = b := by
      refine UInt8.toNat_inj.mp ?_
      have hbyte : (UInt8.ofNat (b.toNat + 256 * ofLeBytes bs)).toNat =
          (b.toNat + 256 * ofLeBytes bs) % 256 := UInt8.toNat_ofNat'
      have hlt := b.toNat_lt
      omega
    have hhigh : (b.toNat + 256 * ofLeBytes bs) / 256 = ofLeBytes bs := by
      have hlt := b.toNat_lt
      omega
    rw [ofLeBytes, List.length_cons, leBytes, hlow, hhigh, ih]

theorem beBytes_ofBeBytes (bs : Bytes) : beBytes bs.length (ofBeBytes bs) = bs := by
  have h := leBytes_ofLeBytes bs.reverse
  rw [List.length_reverse] at h
  rw [beBytes, ofBeBytes, h, List.reverse_reverse]

theorem ofLeBytes_append (as bs : Bytes) :
    ofLeBytes (as ++ bs) = ofLeBytes as + 256 ^ as.length * ofLeBytes bs := by
  induction as with
  | nil => simp [ofLeBytes]
  | cons a as ih =>
    simp only [List.cons_append, ofLeBytes, ih, List.length_cons, Nat.pow_succ', Nat.mul_add]
    rw [Nat.mul_assoc]
    omega

theorem ofBeBytes_cons (b : UInt8) (bs : Bytes) :
    ofBeBytes (b :: bs) = ofBeBytes bs + 256 ^ bs.length * b.toNat := by
  rw [ofBeBytes, List.reverse_cons, ofLeBytes_append, List.length_reverse]
  rfl

theorem ofBeBytes_lt (bs : Bytes) : ofBeBytes bs < 256 ^ bs.length := by
  induction bs with
  | nil => simp [ofBeBytes, ofLeBytes]
  | cons b bs ih =>
    rw [ofBeBytes_cons, List.length_cons, Nat.pow_succ']
    have hlt := b.toNat_lt
    have hle : 256 ^ bs.length * b.toNat ≤ 256 ^ bs.length * 255 := Nat.mul_le_mul_left _ (by omega)
    omega

theorem ofLeBytes_lt (bs : Bytes) : ofLeBytes bs < 256 ^ bs.length := by
  have h := ofBeBytes_lt bs.reverse
  rwa [ofBeBytes, List.reverse_reverse, List.length_reverse] at h

/-- The ASCII bytes of a text. -/
def ascii (s : String) : Bytes := s.toList.map fun c => UInt8.ofNat c.toNat

namespace Sha256

/-- The 64 round constants. -/
def roundConstants : List UInt32 :=
  [0x428a2f98, 0x71374491, 0xb5c0fbcf, 0xe9b5dba5, 0x3956c25b, 0x59f111f1, 0x923f82a4, 0xab1c5ed5,
   0xd807aa98, 0x12835b01, 0x243185be, 0x550c7dc3, 0x72be5d74, 0x80deb1fe, 0x9bdc06a7, 0xc19bf174,
   0xe49b69c1, 0xefbe4786, 0x0fc19dc6, 0x240ca1cc, 0x2de92c6f, 0x4a7484aa, 0x5cb0a9dc, 0x76f988da,
   0x983e5152, 0xa831c66d, 0xb00327c8, 0xbf597fc7, 0xc6e00bf3, 0xd5a79147, 0x06ca6351, 0x14292967,
   0x27b70a85, 0x2e1b2138, 0x4d2c6dfc, 0x53380d13, 0x650a7354, 0x766a0abb, 0x81c2c92e, 0x92722c85,
   0xa2bfe8a1, 0xa81a664b, 0xc24b8b70, 0xc76c51a3, 0xd192e819, 0xd6990624, 0xf40e3585, 0x106aa070,
   0x19a4c116, 0x1e376c08, 0x2748774c, 0x34b0bcb5, 0x391c0cb3, 0x4ed8aa4a, 0x5b9cca4f, 0x682e6ff3,
   0x748f82ee, 0x78a5636f, 0x84c87814, 0x8cc70208, 0x90befffa, 0xa4506ceb, 0xbef9a3f7, 0xc67178f2]

/-- The eight working words. -/
structure Words where
  a : UInt32
  b : UInt32
  c : UInt32
  d : UInt32
  e : UInt32
  f : UInt32
  g : UInt32
  h : UInt32

def initial : Words :=
  ⟨0x6a09e667, 0xbb67ae85, 0x3c6ef372, 0xa54ff53a, 0x510e527f, 0x9b05688c, 0x1f83d9ab, 0x5be0cd19⟩

def rotr (x n : UInt32) : UInt32 := (x >>> n) ||| (x <<< (32 - n))

def round (w : Words) (k x : UInt32) : Words :=
  let s1 := rotr w.e 6 ^^^ rotr w.e 11 ^^^ rotr w.e 25
  let ch := (w.e &&& w.f) ^^^ (~~~ w.e &&& w.g)
  let t1 := w.h + s1 + ch + k + x
  let s0 := rotr w.a 2 ^^^ rotr w.a 13 ^^^ rotr w.a 22
  let maj := (w.a &&& w.b) ^^^ (w.a &&& w.c) ^^^ (w.b &&& w.c)
  ⟨t1 + (s0 + maj), w.a, w.b, w.c, w.d + t1, w.e, w.f, w.g⟩

/-- The rounds of one block; `win` holds the next sixteen schedule words. -/
def rounds : List UInt32 → List UInt32 → Words → Words
  | [], _, w => w
  | k :: ks, win, w =>
    let x := win.getD 0 0
    let x1 := win.getD 1 0
    let x14 := win.getD 14 0
    let s0 := rotr x1 7 ^^^ rotr x1 18 ^^^ (x1 >>> 3)
    let s1 := rotr x14 17 ^^^ rotr x14 19 ^^^ (x14 >>> 10)
    rounds ks (win.drop 1 ++ [x + s0 + win.getD 9 0 + s1]) (round w k x)

def compress (w : Words) (block : List UInt32) : Words :=
  let v := rounds roundConstants block w
  ⟨w.a + v.a, w.b + v.b, w.c + v.c, w.d + v.d, w.e + v.e, w.f + v.f, w.g + v.g, w.h + v.h⟩

/-- `n` big-endian 32-bit words of a byte string. -/
def words : Nat → Bytes → List UInt32
  | 0, _ => []
  | n + 1, bs => UInt32.ofNat (ofBeBytes (bs.take 4)) :: words n (bs.drop 4)

/-- Message, the bit 1, zeros up to 56 modulo 64, and the bit length. -/
def pad (m : Bytes) : Bytes :=
  m ++ 0x80 :: List.replicate ((119 - m.length % 64) % 64) 0 ++ beBytes 8 (8 * m.length)

def blocks : Nat → Bytes → Words → Words
  | 0, _, w => w
  | n + 1, bs, w => blocks n (bs.drop 64) (compress w (words 16 bs))

def Words.toBytes (w : Words) : Bytes :=
  [w.a, w.b, w.c, w.d, w.e, w.f, w.g, w.h].flatMap fun x => beBytes 4 x.toNat

end Sha256

/-- SHA-256 of a byte string. -/
def sha256 (m : Bytes) : Bytes :=
  let p := Sha256.pad m
  (Sha256.blocks (p.length / 64) p Sha256.initial).toBytes

theorem sha256_length (m : Bytes) : (sha256 m).length = 32 := by
  simp [sha256, Sha256.Words.toBytes]

/-- SHA-256 of the concatenated slices, as a 256-bit number. -/
def hashv (slices : List Bytes) : BitVec 256 := BitVec.ofNat 256 (ofBeBytes (sha256 slices.flatten))

example : hashv [ascii "ab", ascii "c"] =
    0xba7816bf8f01cfea414140de5dae2223b00361a396177a9cb410ff61f20015ad#256 := by
  decide +kernel

/-! ## Alphabets -/

/-- A letter of an alphabet is found where it stands. -/
theorem findIdx?_getD {α : Type} [DecidableEq α] {letters : List α} (hd : letters.Nodup) {n : Nat}
    (h : n < letters.length) (a : α) : letters.findIdx? (· = letters.getD n a) = some n := by
  rw [List.getD_eq_getElem?_getD, List.getElem?_eq_getElem h, Option.getD_some,
    List.findIdx?_eq_some_iff_getElem]
  refine ⟨h, decide_eq_true rfl, fun j hj heq => ?_⟩
  have hsame := (List.Nodup.getElem_inj_iff hd).mp (of_decide_eq_true heq)
  omega

/-! ## Values worked out beforehand -/

section

variable {α β : Type} [BEq α] [LawfulBEq α]

/-- A function with some of its values in a table. -/
def tabled (known : List (α × β)) (f : α → β) (a : α) : β := (known.lookup a).getD (f a)

theorem tabled_eq {known : List (α × β)} {f : α → β} (h : ∀ p ∈ known, f p.1 = p.2) :
    tabled known f = f := by
  funext a
  unfold tabled
  induction known with
  | nil => rfl
  | cons p rest ih =>
    rw [List.lookup_cons]
    cases hp : a == p.1 with
    | false => exact ih fun q hq => h q (List.mem_cons_of_mem _ hq)
    | true =>
      rw [eq_of_beq hp]
      exact (h p List.mem_cons_self).symm

end

end ChainPay.Lib
