import TradeDesk.Series.Point

/-!
# Crossings

Where the newest segment of a fast line meets that of a slow line, and which way the fast line goes
through the slow one. Segments whose directions are nearly parallel do not meet, unless they are one
and the same segment.

Spec: `SPEC_FULL.md` §4.3, `tryCrossPoint`, and §D for ends that touch and for one and the same
segment. Follows `indicators::crossing`.
-/

namespace TradeDesk

open Json

/-- Which way the fast line goes through the slow line. -/
inductive CrossDirection where
  | belowToAbove
  | aboveToBelow
  deriving DecidableEq, Repr

namespace CrossDirection

/-- The direction in words. -/
def label : CrossDirection → String
  | belowToAbove => "below-to-above"
  | aboveToBelow => "above-to-below"

def name : CrossDirection → String
  | belowToAbove => "BelowToAbove"
  | aboveToBelow => "AboveToBelow"

instance : Codec CrossDirection where
  write d := .text d.name
  read := Codec.readName [(belowToAbove.name, belowToAbove), (aboveToBelow.name, aboveToBelow)]

end CrossDirection

/-- The point where the fast and slow lines met. -/
structure CrossPoint where
  ts : Int64
  value : Float
  direction : CrossDirection

instance : Stamped CrossPoint := ⟨fun p => p.ts.toInt⟩

instance : Codec CrossPoint where
  write p := .object
    [("ts", write p.ts), ("value", write p.value), ("direction", write p.direction)]
  read := FieldReader.record do
    return {
      ts := ← FieldReader.required "ts"
      value := ← FieldReader.required "value"
      direction := ← FieldReader.required "direction" }

namespace Crossing

/-- How far beyond its ends a segment still counts, as a part of its length. -/
def endSlack : Float := 1e-9

/-- Below this ratio of the cross product to the product of the lengths, directions are parallel. -/
def parallelSlack : Float := 1e-12

/-- A difference in time and value. -/
structure Vector where
  dt : Float
  dv : Float

/-- The way from one point to another. The times are words, so their difference wraps around.
Follows `crossing::vector`. -/
def between (source target : TimePoint) : Vector :=
  ⟨Float.ofInt (target.ts - source.ts).toInt, target.value - source.value⟩

/-- The cross product. -/
def cross (a b : Vector) : Float := a.dt * b.dv - b.dt * a.dv

/-- The length. -/
def norm (a : Vector) : Float := Binary64.length a.dt a.dv

/-- Whether a parameter lies on the segment that zero and one delimit. -/
def onSegment (t : Float) : Bool := -endSlack ≤ t && t ≤ 1.0 + endSlack

/-- Where the fast segment from `a` to `b` meets the slow segment from `c` to `d`. A fast line that
starts below the slow one goes up through it; otherwise it goes down. One segment that is both
crosses at its start. Follows `crossing::intersect`. -/
def intersect (a b c d : TimePoint) : Option CrossPoint :=
  let direction := if a.value < c.value then .belowToAbove else .aboveToBelow
  let r := between a b
  let s := between c d
  let denom := cross r s
  if denom.abs ≤ parallelSlack * norm r * norm s then
    if a.same c && b.same d then some ⟨a.ts, a.value, direction⟩ else none
  else
    -- `a + t * r = c + u * s`
    let ac := between a c
    let t := cross ac s / denom
    let u := cross ac r / denom
    if onSegment t && onSegment u then
      some ⟨Binary64.roundWord (Float.ofInt a.ts.toInt + t * r.dt), a.value + t * r.dv, direction⟩
    else none

end Crossing

end TradeDesk
