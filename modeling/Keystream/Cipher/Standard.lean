import Keystream.Word
/-!
ChaCha20 as RFC 8439 gives it, on 32-bit words: addition modulo `2^32`, exclusive or and rotation.
With it the key, nonce and block of the example in its section 2.3.2.
-/
namespace Keystream.Standard

def rotate (w : Word) (r : Nat) : Word := w <<< .ofNat r ||| w >>> .ofNat (32 - r)

def quarter (a b c d : Word) : Word × Word × Word × Word :=
  let a := a + b
  let d := rotate (d ^^^ a) 16
  let c := c + d
  let b := rotate (b ^^^ c) 12
  let a := a + b
  let d := rotate (d ^^^ a) 8
  let c := c + d
  let b := rotate (b ^^^ c) 7
  (a, b, c, d)

def quarterAt (x : Vector Word 16) (a b c d : Fin 16) : Vector Word 16 :=
  let (wa, wb, wc, wd) := quarter x[a] x[b] x[c] x[d]
  (((x.set a wa).set b wb).set c wc).set d wd

def innerBlock (x : Vector Word 16) : Vector Word 16 :=
  let x := quarterAt x 0 4 8 12
  let x := quarterAt x 1 5 9 13
  let x := quarterAt x 2 6 10 14
  let x := quarterAt x 3 7 11 15
  let x := quarterAt x 0 5 10 15
  let x := quarterAt x 1 6 11 12
  let x := quarterAt x 2 7 8 13
  quarterAt x 3 4 9 14

structure Quarter where
  a : Fin 16
  b : Fin 16
  c : Fin 16
  d : Fin 16

def Quarter.places (q : Quarter) : List (Fin 16) := [q.a, q.b, q.c, q.d]

def quarters : List Quarter :=
  [⟨0, 4, 8, 12⟩, ⟨1, 5, 9, 13⟩, ⟨2, 6, 10, 14⟩, ⟨3, 7, 11, 15⟩,
    ⟨0, 5, 10, 15⟩, ⟨1, 6, 11, 12⟩, ⟨2, 7, 8, 13⟩, ⟨3, 4, 9, 14⟩]

theorem innerBlock_eq_foldl (x : Vector Word 16) :
    innerBlock x = quarters.foldl (fun x q => quarterAt x q.a q.b q.c q.d) x := rfl

def rounds : Nat → Vector Word 16 → Vector Word 16
  | 0, x => x
  | n + 1, x => rounds n (innerBlock x)

def block (x : Vector Word 16) : Vector Word 16 := (rounds 10 x).zipWith (· + ·) x

def exampleKey : Bytes := (List.range 32).map .ofNat

def exampleNonce : Bytes := [0, 0, 0, 9, 0, 0, 0, 0x4a, 0, 0, 0, 0]

def exampleBlock : Bytes := [
  0x10, 0xf1, 0xe7, 0xe4, 0xd1, 0x3b, 0x59, 0x15, 0x50, 0x0f, 0xdd, 0x1f, 0xa3, 0x20, 0x71, 0xc4,
  0xc7, 0xd1, 0xf4, 0xc7, 0x33, 0xc0, 0x68, 0x03, 0x04, 0x22, 0xaa, 0x9a, 0xc3, 0xd4, 0x6c, 0x4e,
  0xd2, 0x82, 0x64, 0x46, 0x07, 0x9f, 0xaa, 0x09, 0x14, 0xc2, 0xd7, 0x05, 0xd9, 0x8b, 0x02, 0xa2,
  0xb5, 0x12, 0x9c, 0xd1, 0xde, 0x16, 0x4e, 0xb9, 0xcb, 0xd0, 0x83, 0xe8, 0xa2, 0x50, 0x3c, 0x4e]

end Keystream.Standard
