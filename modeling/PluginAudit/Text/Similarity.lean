namespace PluginAudit.Text

/-- The length of the common beginning of two lists. -/
def commonLength : List Char → List Char → Nat
  | a :: as, b :: bs => if a == b then commonLength as bs + 1 else 0
  | _, _ => 0

/-- A piece that two texts have in common: where it begins in each, and its length. -/
structure Piece where
  left : Nat
  right : Nat
  length : Nat

/-- The longest common piece; of several, the first one. -/
def longestPiece (a b : List Char) : Piece :=
  (List.range a.length).foldl (fun best i =>
    (List.range b.length).foldl (fun best j =>
      let n := commonLength (a.drop i) (b.drop j)
      if best.length < n then ⟨i, j, n⟩ else best) best) ⟨0, 0, 0⟩

/-- The number of characters in common pieces; the fuel bounds the number of nested pieces. -/
def commonCount : Nat → List Char → List Char → Nat
  | 0, _, _ => 0
  | fuel + 1, a, b =>
    let p := longestPiece a b
    if p.length == 0 then 0
    else commonCount fuel (a.take p.left) (b.take p.right) + p.length +
      commonCount fuel (a.drop (p.left + p.length)) (b.drop (p.right + p.length))

/-- The characters in common pieces, and all characters. -/
def likeness (a b : String) : Nat × Nat :=
  let n := commonCount (a.length + 1) a.toList b.toList
  (2 * n, a.length + b.length)

/-- The texts of which at least three fifths are common with a given one, in alphabetical order; of
more than three the best three. -/
def closeTo (s : String) (known : List String) : List String :=
  let scored := (known.map fun k => (likeness k s, k)).filter fun e => e.1.2 * 3 ≤ e.1.1 * 5
  let best := scored.mergeSort fun a b =>
    let x := a.1.1 * b.1.2
    let y := b.1.1 * a.1.2
    y < x || (x == y && decide (b.2 ≤ a.2))
  ((best.take 3).map Prod.snd).mergeSort fun a b => decide (a ≤ b)

end PluginAudit.Text
