import AtomicCss.Color.Hsla
import AtomicCss.Diagnostic
import AtomicCss.Vocabulary

/-!
# Tone tracks

A color spans a scale of tones from 0, white, to 100, black, with the color itself at tone 50. The
soft track holds the tones from 0 to 30, the solid track those from 40 to 100 in steps of five. A
request for any tone is answered from a coarser grid of each track.
-/
namespace AtomicCss

structure ToneTracks where
  soft : List (Nat × Hsla)
  solid : List (Nat × Hsla)

namespace Tone

def softTones : List Nat := List.range 31

def solidTones : List Nat := (List.range 13).map fun i => 40 + 5 * i

/-- The tones that requests on a track are answered with. -/
def grid : Track → List Int
  | .soft => [0, 1, 2, 3, 4, 5, 6, 7, 8, 9, 10, 15, 20, 25, 30]
  | .solid => [40, 50, 60, 70, 80, 90, 100]

/-- The least and greatest tone of a track. -/
def bounds : Track → Int × Int
  | .soft => (0, 30)
  | .solid => (40, 100)

/-- The lightness of tone 20, 30 and 40, which split the way from 90 to the anchor evenly. -/
def beforeAnchor (anchor : Int) (index : Nat) : Int :=
  nearestQuotient (4 * 90 - (90 - anchor) * index) 4

/-- The lightness of tone 60 to 90, which split the way from the anchor to black evenly. -/
def afterAnchor (anchor : Int) (index : Nat) : Int :=
  nearestQuotient (5 * anchor - anchor * index) 5

/-- The lightness of a tone below eleven or divisible by ten. -/
def mainLightness (anchor : Int) (tone : Nat) : Int :=
  if tone ≤ 10 then 100 - tone
  else if tone < 50 then beforeAnchor anchor (tone / 10 - 1)
  else if tone = 50 then anchor
  else if tone < 100 then afterAnchor anchor (tone / 10 - 5)
  else 0

/-- A point on the way from one lightness to another. -/
def between (low high : Int) (tenths : Nat) : Int :=
  nearestQuotient (10 * low + (high - low) * tenths) 10

/-- The lightness of a soft tone. Tones that are no main ones are interpolated. -/
def softLightness (anchor : Int) (tone : Nat) : Int :=
  if tone ≤ 10 ∨ tone % 10 = 0 then mainLightness anchor tone
  else
    let start := tone / 10 * 10
    between (mainLightness anchor start) (mainLightness anchor (start + 10)) (tone - start)

/-- The lightness of a solid tone. An odd five lies halfway between its neighbours. -/
def solidLightness (anchor : Int) (tone : Nat) : Int :=
  if tone % 10 = 0 then mainLightness anchor tone
  else nearestQuotient (mainLightness anchor (tone - 5) + mainLightness anchor (tone + 5)) 2

def tracks (color : Hsla) (mediumAnchor : Bool) : ToneTracks :=
  let anchor := if mediumAnchor then 50 else color.lightness
  { soft := softTones.map fun t => (t, { color with lightness := softLightness anchor t })
    solid := solidTones.map fun t => (t, { color with lightness := solidLightness anchor t }) }

/-- The tracks of a hexadecimal color. -/
def tracksOfHex (hex : String) (mediumAnchor : Bool) : Except HexError ToneTracks := do
  pure (tracks (← Color.hslaOfHex hex) mediumAnchor)

def ToneTracks.toMap (t : ToneTracks) : Dict Value :=
  let track (colors : List (Nat × Hsla)) : Value :=
    .map (colors.map fun (tone, c) => (Decimal.digits tone, .list c.components))
  [(Track.soft.name, track t.soft), (Track.solid.name, track t.solid)]

/-- The first grid tone at the least distance. -/
def nearestOn (target : Int) : List Int → Int
  | [] => target
  | t :: rest =>
    rest.foldl (fun best u => if (target - u).natAbs < (target - best).natAbs then u else best) t

def trackOf (tone : Number) : Track := if tone.atMost 30 then .soft else .solid

/-- The track of a requested tone and the tone that answers it. -/
def resolve (tone : Number) : Except NumberError (Track × Int) := do
  let track := trackOf tone
  let (low, high) := bounds track
  let n ← tone.roundHalfUp
  pure (track, nearestOn (max low (min high n)) (grid track))

def opacity (visibility : Number) : Except NumberError Float :=
  let most := if visibility.less 100 then visibility else 100
  let clamped := if (0 : Number).less most then most else 0
  clamped.divide 100

def components? : Value → Option (List Value)
  | .map _ => none
  | v => v.elements?

/-- The color with its opacity replaced. A color of fewer than three components has none. -/
def withAlpha (color : Value) (visibility : Number) : Except NumberError (List Value) := do
  match components? color with
  | some (h :: s :: l :: _) => pure [h, s, l, .number (.float (← opacity visibility))]
  | some _ => throw .notANumber
  | none => throw .notNumeric

inductive PickError
  | noTrack (role : String) (track : Track)
  | noTone (tone : Int) (role : String) (track : Track) (available : List String)
  | number (e : NumberError)
  /-- Something else stands where tracks or tones are expected. -/
  | notMap

namespace PickError

def message : PickError → String
  | noTrack role track => "Role/series not found: role=" ++ role ++ " series=" ++ track.name
  | noTone tone role track available =>
    "Tone " ++ Number.intText tone ++ " not available in " ++ role ++ "." ++ track.name
      ++ ". Available: " ++ ", ".intercalate available
  | number _ | notMap => ""

def diagnostic? : PickError → Option Diagnostic
  | number _ | notMap => none
  | e => some { kind := .schema, message := e.message }

end PickError

/-- The members of a value, which must be a map if it is given. -/
def membersOf (v : Value) : Except PickError (Dict Value) :=
  match v with
  | .map members => .ok members
  | v => if v.isGiven then .error .notMap else .ok []

/-- The tones of a role's track, of which there must be some. -/
def trackOfTheme (theme : Dict Value) (role : String) (track : Track) :
    Except PickError (Dict Value) := do
  let tracks ← membersOf (theme.getD role .null)
  let tones ← membersOf (tracks.getD track.name .null)
  if tones.isEmpty then throw (.noTrack role track) else pure tones

/-- The color of a role at the tone that answers a request, its opacity replaced if a visibility
is given. -/
def pick (theme : Dict Value) (role : String) (tone : Number) (alpha : Option Number) :
    Except PickError (List Value) := do
  let (track, key) ← (resolve tone).mapError .number
  let tones ← trackOfTheme theme role track
  let some color := Value.member? tones (Number.intText key)
    | throw (.noTone key role track tones.keys)
  match alpha, color.elements? with
  | some visibility, _ => (withAlpha color visibility).mapError .number
  | none, some components => pure components
  | none, none => throw (.number .notNumeric)

end Tone
end AtomicCss
