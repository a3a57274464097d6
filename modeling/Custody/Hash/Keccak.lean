import Custody.Bytes
/-!
# Keccak-256

The sponge over the permutation Keccak-f[1600] with a rate of 136 bytes and the padding that starts
with a one byte, as addresses use it. The state is 25 lanes of 64 bits, the lane of column `x` and
row `y` at index `x + 5 * y`; the five step mappings are written as equations on lanes.
-/

namespace Custody.Keccak

/-- The state: 25 lanes. -/
abbrev State := Array UInt64

/-- The lane at an index. -/
def lane (a : State) (i : Nat) : UInt64 :=
  a.getD i 0

/-- Rotates a lane to the left. -/
def rotate (w : UInt64) (k : Nat) : UInt64 :=
  if k % 64 = 0 then w else (w <<< UInt64.ofNat (k % 64)) ||| (w >>> UInt64.ofNat (64 - k % 64))

/-- The constants of the 24 rounds. -/
def roundConstants : List UInt64 :=
  [0x0000000000000001, 0x0000000000008082, 0x800000000000808A, 0x8000000080008000,
   0x000000000000808B, 0x0000000080000001, 0x8000000080008081, 0x8000000000008009,
   0x000000000000008A, 0x0000000000000088, 0x0000000080008009, 0x000000008000000A,
   0x000000008000808B, 0x800000000000008B, 0x8000000000008089, 0x8000000000008003,
   0x8000000000008002, 0x8000000000000080, 0x000000000000800A, 0x800000008000000A,
   0x8000000080008081, 0x8000000000008080, 0x0000000080000001, 0x8000000080008008]

/-- How far each lane is rotated, by index. -/
def rotations : Array Nat :=
  #[0, 1, 62, 28, 27, 36, 44, 6, 55, 20, 3, 10, 43, 25, 39, 41, 45, 15, 21, 8, 18, 2, 61, 56, 14]

/-- The state whose lane at an index is given by a function. -/
def tabulate (f : Nat → UInt64) : State :=
  (Array.range 25).map f

/-- Mixes each lane with the parities of two neighbouring columns. -/
def theta (a : State) : State :=
  let c := (Array.range 5).map fun x =>
    lane a x ^^^ lane a (x + 5) ^^^ lane a (x + 10) ^^^ lane a (x + 15) ^^^ lane a (x + 20)
  let d := (Array.range 5).map fun x => lane c ((x + 4) % 5) ^^^ rotate (lane c ((x + 1) % 5)) 1
  tabulate fun i => lane a i ^^^ lane d (i % 5)

/-- Rotates the lanes and moves them to their new places: the lane at column `x`, row `y` comes from
column `x + 3 * y`, row `x`. -/
def rhoPi (a : State) : State :=
  tabulate fun i =>
    let x := i % 5
    let y := i / 5
    let source := (x + 3 * y) % 5 + 5 * x
    rotate (lane a source) (rotations.getD source 0)

/-- Combines each lane with the next two of its row. -/
def chi (a : State) : State :=
  tabulate fun i =>
    let row := i / 5 * 5
    lane a i ^^^ ((~~~ lane a (row + (i + 1) % 5)) &&& lane a (row + (i + 2) % 5))

/-- Adds the round constant to the first lane. -/
def iota (rc : UInt64) (a : State) : State :=
  a.modify 0 (· ^^^ rc)

/-- The permutation: 24 rounds. -/
def permute (a : State) : State :=
  roundConstants.foldl (fun a rc => iota rc (chi (rhoPi (theta a)))) a

/-- The number of bytes absorbed at a time. -/
def rate : Nat := 136

/-- Fills the last block: a one byte, zeros, and the top bit of the last byte. -/
def pad (message : Bytes) : Bytes :=
  let free := rate - message.length % rate
  if free = 1 then
    message ++ [0x81]
  else
    message ++ [0x01] ++ List.replicate (free - 2) 0 ++ [0x80]

/-- The lane written by eight bytes, least significant first. -/
def laneOf (b : Bytes) : UInt64 :=
  b.foldr (fun x w => (w <<< 8) ||| x.toUInt64) 0

/-- The bytes of a lane, least significant first. -/
def laneBytes (w : UInt64) : Bytes :=
  (List.range 8).map fun i => (w >>> UInt64.ofNat (8 * i)).toUInt8

/-- Adds one block of `rate` bytes to the state and permutes it. -/
def absorbBlock (a : State) (block : Bytes) : State :=
  permute (tabulate fun i => lane a i ^^^ laneOf ((block.drop (8 * i)).take 8))

/-- Absorbs a padded message block by block. -/
def absorb (a : State) (blocks : Nat) (message : Bytes) : State :=
  match blocks with
  | 0 => a
  | blocks + 1 => absorb (absorbBlock a (message.take rate)) blocks (message.drop rate)

/-- The digest of 32 bytes. -/
def digest (message : Bytes) : Bytes :=
  let padded := pad message
  let final := absorb (Array.replicate 25 0) (padded.length / rate) padded
  (List.range 4).flatMap fun i => laneBytes (lane final i)

end Custody.Keccak
