import Mathlib

/-!
SHA-256 over byte lists, with words kept as naturals below `2 ^ 32`, and its hexadecimal digest.
-/

namespace Quantbot
namespace Sha256

def word (x : ℕ) : ℕ :=
  x % 2 ^ 32

def rotr (x n : ℕ) : ℕ :=
  (x >>> n) ||| word (x <<< (32 - n))

def smallSigma0 (x : ℕ) : ℕ :=
  rotr x 7 ^^^ rotr x 18 ^^^ (x >>> 3)

def smallSigma1 (x : ℕ) : ℕ :=
  rotr x 17 ^^^ rotr x 19 ^^^ (x >>> 10)

def bigSigma0 (x : ℕ) : ℕ :=
  rotr x 2 ^^^ rotr x 13 ^^^ rotr x 22

def bigSigma1 (x : ℕ) : ℕ :=
  rotr x 6 ^^^ rotr x 11 ^^^ rotr x 25

def ch (x y z : ℕ) : ℕ :=
  (x &&& y) ^^^ ((2 ^ 32 - 1 - x) &&& z)

def maj (x y z : ℕ) : ℕ :=
  (x &&& y) ^^^ (x &&& z) ^^^ (y &&& z)

def roundConstants : List ℕ := [
  0x428a2f98, 0x71374491, 0xb5c0fbcf, 0xe9b5dba5, 0x3956c25b, 0x59f111f1, 0x923f82a4, 0xab1c5ed5,
  0xd807aa98, 0x12835b01, 0x243185be, 0x550c7dc3, 0x72be5d74, 0x80deb1fe, 0x9bdc06a7, 0xc19bf174,
  0xe49b69c1, 0xefbe4786, 0x0fc19dc6, 0x240ca1cc, 0x2de92c6f, 0x4a7484aa, 0x5cb0a9dc, 0x76f988da,
  0x983e5152, 0xa831c66d, 0xb00327c8, 0xbf597fc7, 0xc6e00bf3, 0xd5a79147, 0x06ca6351, 0x14292967,
  0x27b70a85, 0x2e1b2138, 0x4d2c6dfc, 0x53380d13, 0x650a7354, 0x766a0abb, 0x81c2c92e, 0x92722c85,
  0xa2bfe8a1, 0xa81a664b, 0xc24b8b70, 0xc76c51a3, 0xd192e819, 0xd6990624, 0xf40e3585, 0x106aa070,
  0x19a4c116, 0x1e376c08, 0x2748774c, 0x34b0bcb5, 0x391c0cb3, 0x4ed8aa4a, 0x5b9cca4f, 0x682e6ff3,
  0x748f82ee, 0x78a5636f, 0x84c87814, 0x8cc70208, 0x90befffa, 0xa4506ceb, 0xbef9a3f7, 0xc67178f2]

structure Chain where
  a : ℕ
  b : ℕ
  c : ℕ
  d : ℕ
  e : ℕ
  f : ℕ
  g : ℕ
  h : ℕ

def Chain.initial : Chain where
  a := 0x6a09e667
  b := 0xbb67ae85
  c := 0x3c6ef372
  d := 0xa54ff53a
  e := 0x510e527f
  f := 0x9b05688c
  g := 0x1f83d9ab
  h := 0x5be0cd19

def Chain.step (s : Chain) (kw : ℕ × ℕ) : Chain :=
  let t1 := s.h + bigSigma1 s.e + ch s.e s.f s.g + kw.1 + kw.2
  let t2 := bigSigma0 s.a + maj s.a s.b s.c
  { a := word (t1 + t2), b := s.a, c := s.b, d := s.c
    e := word (s.d + t1), f := s.e, g := s.f, h := s.g }

def Chain.add (s t : Chain) : Chain where
  a := word (s.a + t.a)
  b := word (s.b + t.b)
  c := word (s.c + t.c)
  d := word (s.d + t.d)
  e := word (s.e + t.e)
  f := word (s.f + t.f)
  g := word (s.g + t.g)
  h := word (s.h + t.h)

/--
Extend a schedule, kept newest word first, by `n` words.
-/
def extend : ℕ → List ℕ → List ℕ
  | 0, ws => ws
  | n + 1, ws =>
    let w :=
      word (smallSigma1 (ws.getD 1 0) + ws.getD 6 0 + smallSigma0 (ws.getD 14 0) + ws.getD 15 0)
    extend n (w :: ws)

def bigEndian (bytes : List ℕ) : ℕ :=
  bytes.foldl (fun acc b => acc * 256 + b) 0

def pieces (k : ℕ) : ℕ → List ℕ → List (List ℕ)
  | 0, _ => []
  | n + 1, xs => xs.take k :: pieces k n (xs.drop k)

def compress (s : Chain) (block : List ℕ) : Chain :=
  let ws := (pieces 4 16 block).map bigEndian
  let schedule := (extend 48 ws.reverse).reverse
  s.add ((roundConstants.zip schedule).foldl Chain.step s)

def pad (bytes : List ℕ) : List ℕ :=
  let len := bytes.length
  let zeros := (55 + 64 - len % 64) % 64
  let bits := 8 * len
  bytes ++ 0x80 :: List.replicate zeros 0
    ++ [7, 6, 5, 4, 3, 2, 1, 0].map (fun i => bits / 256 ^ i % 256)

def digest (bytes : List ℕ) : Chain :=
  let padded := pad bytes
  (pieces 64 (padded.length / 64) padded).foldl compress Chain.initial

def hexDigit (n : ℕ) : Char :=
  "0123456789abcdef".toList.getD n '0'

def hexWord (x : ℕ) : List Char :=
  [7, 6, 5, 4, 3, 2, 1, 0].map (fun i => hexDigit (x / 16 ^ i % 16))

def utf8 (s : String) : List ℕ :=
  (s.toList.flatMap String.utf8EncodeChar).map UInt8.toNat

def Chain.hex (d : Chain) : List Char :=
  [d.a, d.b, d.c, d.d, d.e, d.f, d.g, d.h].flatMap hexWord

def hexdigest (s : String) : List Char :=
  (digest (utf8 s)).hex

def hexdigestBytes (data : List UInt8) : List Char :=
  (digest (data.map UInt8.toNat)).hex

theorem hexDigit_mem : ∀ n < 16, hexDigit n ∈ "0123456789abcdef".toList := by
  decide

theorem mem_hexWord {c : Char} {x : ℕ} (h : c ∈ hexWord x) : c ∈ "0123456789abcdef".toList := by
  simp only [hexWord, List.mem_map] at h
  obtain ⟨i, -, rfl⟩ := h
  apply hexDigit_mem
  omega

theorem length_hexWord (x : ℕ) : (hexWord x).length = 8 := by
  simp [hexWord]

theorem length_hex (d : Chain) : d.hex.length = 64 := by
  simp [Chain.hex, length_hexWord]

@[simp]
theorem length_hexdigest (s : String) : (hexdigest s).length = 64 :=
  length_hex _

@[simp]
theorem length_hexdigestBytes (data : List UInt8) : (hexdigestBytes data).length = 64 :=
  length_hex _

theorem mem_hexdigest {c : Char} {s : String} (h : c ∈ hexdigest s)
    : c ∈ "0123456789abcdef".toList := by
  simp only [hexdigest, Chain.hex, List.mem_flatMap] at h
  obtain ⟨x, -, hc⟩ := h
  exact mem_hexWord hc

theorem mem_hexdigestBytes {c : Char} {data : List UInt8} (h : c ∈ hexdigestBytes data)
    : c ∈ "0123456789abcdef".toList := by
  simp only [hexdigestBytes, Chain.hex, List.mem_flatMap] at h
  obtain ⟨x, -, hc⟩ := h
  exact mem_hexWord hc

end Sha256

abbrev Bytes := List UInt8

def sha256Bytes (data : Bytes) : String :=
  String.ofList (Sha256.hexdigestBytes data)

def utf8Bytes (s : String) : Bytes :=
  s.toList.flatMap String.utf8EncodeChar

end Quantbot
