import Mathlib.Data.List.Basic

/-! HMAC over a hash function: the key, hashed where it is longer than a block and filled up with
zeros, masked with the two pads.
-/
namespace ClawKernel.Lib.Hmac

/-- SHA-256, of which only the length of its digests is known. -/
structure Sha256 where
  digest : List UInt8 → List UInt8
  length_digest : ∀ message, (digest message).length = 32

/-- The key as a whole block. -/
def block (hash : List UInt8 → List UInt8) (size : Nat) (key : List UInt8) : List UInt8 :=
  List.rightpad size 0 (if size < key.length then hash key else key)

def masked (block : List UInt8) (pad : UInt8) : List UInt8 :=
  List.zipWith (· ^^^ ·) block (List.replicate block.length pad)

def hmac (hash : List UInt8 → List UInt8) (size : Nat) (key text : List UInt8) : List UInt8 :=
  hash (masked (block hash size key) 0x5c ++ hash (masked (block hash size key) 0x36 ++ text))

theorem masked_eq (block : List UInt8) (pad : UInt8) : masked block pad = block.map (· ^^^ pad) := by
  induction block with
  | nil => rfl
  | cons byte rest ih =>
    unfold masked at ih ⊢
    rw [List.length_cons,List.replicate_succ,List.zipWith_cons_cons,ih,List.map_cons]

end ClawKernel.Lib.Hmac
