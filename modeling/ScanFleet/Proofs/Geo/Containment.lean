import Mathlib.Data.List.Rotate
import ScanFleet.Geo.Area

set_option autoImplicit false

/-! # Which points lie in a polygon

A polygon is asked vertex by vertex, with the vertex before in hand, and the answer turns at every edge
that the ray crosses. So it tells whether the edges crossed are odd in number
(`Area.polygonContains_eq`). The edges go round in a circle: another start of the list of vertices gives
the same edges, from another one on (`Area.edges_rotate`), and as many of them are crossed.

An edge is crossed only when one of its ends lies north of the point and the other does not. So no
polygon contains a point that lies south of all its vertices, or of none. All of this needs nothing of
the test that decides on which side of an edge the point lies. -/

namespace ScanFleet

/-! ## The order of doubles -/

namespace Decimal

open Float.Model

/-- Compared the other way round, two doubles compare the other way. -/
theorem compare_swap (a b : UnpackedFloat) : (a.compare b).map Ordering.swap = b.compare a := by
  cases a with
  | notANumber => cases b <;> rfl
  | infinity s =>
    cases b with
    | notANumber => rfl
    | infinity t => cases s <;> cases t <;> rfl
    | zero t => cases s <;> rfl
    | finite t n d hn => cases s <;> rfl
  | zero s =>
    cases b with
    | notANumber => rfl
    | infinity t => cases t <;> rfl
    | zero t => rfl
    | finite t n d hn => cases t <;> rfl
  | finite s m e hm =>
    cases b with
    | notANumber => rfl
    | infinity t => cases t <;> rfl
    | zero t => cases s <;> rfl
    | finite t n d hn =>
      have hmagnitude :
          ((compare e d).then (compare m n)).swap = (compare d e).then (compare n m) := by
        rw [Ordering.swap_then, Int.compare_swap, Nat.compare_swap]
      cases s with
      | positive =>
        cases t with
        | positive => exact congrArg some hmagnitude
        | negative => rfl
      | negative =>
        cases t with
        | positive => rfl
        | negative => exact congrArg (fun order => some order.swap) hmagnitude

theorem compare_of_lt {a b : Float} (hlt : a < b) :
    a.toModel.unpack.compare b.toModel.unpack = some .lt := by
  simpa [LT.lt, Float.lt, Float.Model.lt, UnpackedFloat.lt] using hlt

theorem not_lt_of_lt {a b : Float} (hlt : a < b) : ¬ b < a := by
  intro hgt
  have hswap := compare_swap a.toModel.unpack b.toModel.unpack
  rw [compare_of_lt hlt, compare_of_lt hgt] at hswap
  cases hswap

end Decimal

namespace Area

/-! ## Edges -/

/-- The edges of a polygon: each vertex with the one before it, the last vertex preceding the first. -/
def edges (polygon : Polygon) : List (Coordinate × Coordinate) :=
  polygon.zip (polygon.rotate (polygon.length - 1))

/-- How many edges of a polygon the ray from a point crosses. -/
def crossed (point : Coordinate) (polygon : Polygon) : Nat :=
  (edges polygon).countP fun edge => crosses point edge.1 edge.2

variable {polygon : Polygon}

theorem edges_eq_of_getLast? {last : Coordinate} (hlast : polygon.getLast? = some last) :
    edges polygon = polygon.zip (last :: polygon) := by
  obtain ⟨front, rfl⟩ := List.getLast?_eq_some_iff.1 hlast
  have hrotate : (front ++ [last]).rotate ((front ++ [last]).length - 1) = last :: front := by
    rw [List.length_append, List.length_singleton, Nat.add_sub_cancel,
      List.rotate_append_length_eq, List.singleton_append]
  -- the list of predecessors runs on for one place more, which no vertex is paired with
  have hcut : (front ++ [last]).zip ((last :: front) ++ [last])
      = (front ++ [last]).zip (last :: front) := by
    have happend : ((front ++ [last]) ++ []).zip ((last :: front) ++ [last])
        = (front ++ [last]).zip (last :: front) ++ [].zip [last] := List.zip_append (by simp)
    simpa using happend
  rw [edges, hrotate, ← hcut, List.cons_append]

example (a b c : Coordinate) : edges [a, b, c] = [(a, c), (b, a), (c, b)] := rfl

/-- The edges of a polygon that starts elsewhere are the same, from another one on. -/
theorem edges_rotate (polygon : Polygon) (start : Nat) :
    edges (polygon.rotate start) = (edges polygon).rotate start := by
  have hlength : polygon.length = (polygon.rotate (polygon.length - 1)).length := by simp
  unfold edges
  rw [List.length_rotate, List.rotate_rotate, Nat.add_comm, ← List.rotate_rotate,
    List.zip_eq_zipWith, List.zip_eq_zipWith, List.zipWith_rotate_distrib _ _ _ _ hlength]

theorem crossed_rotate (point : Coordinate) (polygon : Polygon) (start : Nat) :
    crossed point (polygon.rotate start) = crossed point polygon := by
  rw [crossed, edges_rotate]
  exact (List.rotate_perm (edges polygon) start).countP_eq _

/-! ## Parity -/

theorem decide_succ_odd (n : Nat) : decide ((n + 1) % 2 = 1) = !decide (n % 2 = 1) := by
  rw [Bool.eq_iff_iff]
  simp only [decide_eq_true_eq, Bool.not_eq_true', decide_eq_false_iff_not]
  omega

/-- Going through the vertices turns the answer once for each edge that is crossed on the way. -/
theorem parityFrom_eq (point previous : Coordinate) (inside : Bool) (vertices : List Coordinate) :
    parityFrom point previous inside vertices
      = (inside != decide (((vertices.zip (previous :: vertices)).countP fun edge =>
          crosses point edge.1 edge.2) % 2 = 1)) := by
  induction vertices generalizing previous inside with
  | nil => simp [parityFrom]
  | cons vertex rest ih =>
    rw [parityFrom, ih, List.zip_cons_cons, List.countP_cons]
    cases crosses point vertex previous with
    | false => simp
    | true => simp [decide_succ_odd]

/-- A polygon contains a point exactly when the crossed edges are odd in number. -/
theorem polygonContains_eq (hsome : polygon ≠ []) (point : Coordinate) :
    polygonContains polygon point = decide (crossed point polygon % 2 = 1) := by
  have hlast := List.getLast?_eq_some_getLast hsome
  rw [polygonContains, hlast, crossed, edges_eq_of_getLast? hlast]
  dsimp only
  rw [parityFrom_eq, Bool.false_bne]

/-! ## Points that no polygon contains -/

/-- The point lies south of every vertex, or of none. -/
def OneSided (point : Coordinate) (polygon : Polygon) : Prop :=
  ∃ north : Bool, ∀ vertex ∈ polygon, decide (vertex.lat > point.lat) = north

/-- The point lies south of every vertex, or north of every vertex. -/
def Outlies (point : Coordinate) (polygon : Polygon) : Prop :=
  (∀ vertex ∈ polygon, point.lat < vertex.lat) ∨ ∀ vertex ∈ polygon, vertex.lat < point.lat

theorem oneSided_of_outlies {point : Coordinate} (hout : Outlies point polygon) :
    OneSided point polygon := by
  rcases hout with hsouth | hnorth
  · exact ⟨true, fun vertex hvertex => decide_eq_true (hsouth vertex hvertex)⟩
  · refine ⟨false, fun vertex hvertex => decide_eq_false ?_⟩
    exact Decimal.not_lt_of_lt (hnorth vertex hvertex)

/-- The ends of an edge are vertices. -/
theorem mem_of_mem_edges {edge : Coordinate × Coordinate} (hedge : edge ∈ edges polygon) :
    edge.1 ∈ polygon ∧ edge.2 ∈ polygon := by
  obtain ⟨hvertex, hbefore⟩ := List.of_mem_zip hedge
  exact ⟨hvertex, List.mem_rotate.1 hbefore⟩

theorem crossed_of_oneSided {point : Coordinate} (hside : OneSided point polygon) :
    crossed point polygon = 0 := by
  obtain ⟨north, hnorth⟩ := hside
  refine List.countP_eq_zero.2 fun edge hedge => ?_
  obtain ⟨hvertex, hbefore⟩ := mem_of_mem_edges hedge
  simp [crosses, hnorth edge.1 hvertex, hnorth edge.2 hbefore]

/-! ## Areas -/

theorem contains_perm {shapes others : List Polygon} (hperm : shapes.Perm others)
    (point : Coordinate) :
    (polygons shapes).contains point = (polygons others).contains point := by
  rw [Bool.eq_iff_iff, contains, contains, List.any_eq_true, List.any_eq_true]
  simp only [hperm.mem_iff]

/-- Whether a point lies in a polygon is told by the parity of the edges crossed. It does not depend on
    where the list of vertices starts, and is denied of a point on one side of all vertices. An area of
    polygons that have vertices answers for every point, whatever the order of the polygons. -/
theorem contains_by_parity (point : Coordinate) :
    (∀ polygon : Polygon, polygon ≠ [] →
      polygonContains polygon point = decide (crossed point polygon % 2 = 1)
        ∧ (∀ start, polygonContains (polygon.rotate start) point = polygonContains polygon point)
        ∧ (OneSided point polygon ∨ Outlies point polygon → polygonContains polygon point = false))
      ∧ ∀ shapes others : List Polygon, (∀ polygon ∈ shapes, polygon ≠ []) → shapes.Perm others →
        (polygons shapes).contains? point = some ((polygons shapes).contains point)
          ∧ (polygons others).contains? point = (polygons shapes).contains? point := by
  constructor
  · intro polygon hsome
    have hrotated : ∀ start, polygon.rotate start ≠ [] := fun start hempty =>
      hsome (List.rotate_eq_nil_iff.1 hempty)
    refine ⟨polygonContains_eq hsome point, fun start => ?_, fun hside => ?_⟩
    · rw [polygonContains_eq (hrotated start), polygonContains_eq hsome, crossed_rotate]
    · have hside : OneSided point polygon := hside.elim id oneSided_of_outlies
      rw [polygonContains_eq hsome, crossed_of_oneSided hside]
      rfl
  · intro shapes others hsome hperm
    have hothers : ∀ polygon ∈ others, polygon ≠ [] := fun polygon hpolygon =>
      hsome polygon (hperm.mem_iff.2 hpolygon)
    have hanswer : (polygons others).contains? point = some ((polygons others).contains point) :=
      askPolygons?_eq hothers point
    refine ⟨askPolygons?_eq hsome point, ?_⟩
    rw [hanswer, ← contains_perm hperm]
    exact (askPolygons?_eq hsome point).symm

/-- A square with a notch in its northern side. -/
def notched : Polygon := [⟨0, 0⟩, ⟨0, 4⟩, ⟨4, 4⟩, ⟨1, 2⟩, ⟨4, 0⟩]

/-- A place to the west of the notch. -/
def westOfNotch : Coordinate := ⟨2, 0.5⟩

/-- A place to the north of the square. -/
def northOfSquare : Coordinate := ⟨5, 0.5⟩

/-- West of the notch the ray crosses both sides of the notch and the eastern side of the square. -/
theorem contains_by_parity_notched :
    (notched ≠ [] ∧ crossed westOfNotch notched = 3
        ∧ ∀ start, polygonContains (notched.rotate start) westOfNotch = true)
      ∧ (Outlies northOfSquare notched ∧ polygonContains notched northOfSquare = false)
      ∧ (polygons [[northOfSquare], notched]).contains? westOfNotch = some true := by
  have hsome : notched ≠ [] := by decide
  have hcrossed : crossed westOfNotch notched = 3 := by decide
  obtain ⟨hinside, hstart, -⟩ := (contains_by_parity westOfNotch).1 notched hsome
  rw [hcrossed] at hinside
  have hout : Outlies northOfSquare notched := .inr (by decide)
  refine ⟨⟨hsome, hcrossed, fun start => (hstart start).trans hinside⟩, ⟨hout, ?_⟩, ?_⟩
  · exact ((contains_by_parity northOfSquare).1 notched hsome).2.2 (.inr hout)
  · obtain ⟨hanswer, hsame⟩ := (contains_by_parity westOfNotch).2 [notched, [northOfSquare]]
      [[northOfSquare], notched] (by decide) (List.Perm.swap _ _ _)
    rw [hsame, hanswer, contains, List.any_cons, hinside]
    rfl

end Area

end ScanFleet
