import MachineFacts.Text

/-! Names that were probably meant. Two words are as similar as the characters they share at
nearby places: by their part of either word, and by how many of them keep their order. -/

namespace MachineFacts

/-- The places from `i` on of those words' characters that `c` may be matched with. -/
def firstFree (c : Char) (low high : Nat) (taken : List Nat) : Nat → Text → Option Nat
  | _, [] => none
  | i, d :: t =>
    if c = d ∧ low ≤ i ∧ i < high ∧ i ∉ taken then some i
    else firstFree c low high taken (i + 1) t

/-- The places in `b` that the characters of a word are matched with, each with its character.
The word's next character is the one at the place `i`. -/
def matchPlaces (reach : Nat) (b : Text) (taken : List Nat) : Nat → Text → List (Char × Nat)
  | _, [] => []
  | i, c :: a =>
    match firstFree c (i - reach) (i + reach + 1) taken 0 b with
    | none => matchPlaces reach b taken (i + 1) a
    | some j => (c, j) :: matchPlaces reach b (j :: taken) (i + 1) a

/-- Three times the similarity of two words, as a fraction. -/
def similarity (a b : Text) : Nat × Nat :=
  let places := matchPlaces (max a.length b.length / 2 - 1) b [] 0 a
  let shared := places.length
  let ordered := (places.map Prod.snd).mergeSort (· ≤ ·)
  let swapped := ((places.map Prod.fst).zip ordered).countP fun p => b[p.2]? ≠ some p.1
  if shared = 0 then (0, 1)
  else
    (shared * shared * (a.length + b.length) + (shared - swapped / 2) * (a.length * b.length),
      a.length * b.length * shared)

/-- The names that are similar to a word by seven tenths or more, most similar last. -/
def similarNames (word : Text) (names : List Text) : List Text :=
  let close := names.filter fun name =>
    let s := similarity word name
    21 * s.2 ≤ 10 * s.1
  close.mergeSort fun m n =>
    let s := similarity word m
    let t := similarity word n
    s.1 * t.2 ≤ t.1 * s.2

end MachineFacts
