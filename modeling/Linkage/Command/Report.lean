import Linkage.Chain
import Linkage.Decimal.Rounded

namespace Linkage.Command

open Body Space

def padRight (width : Nat) (text : String) : String :=
  String.ofList (text.toList.rightpad width ' ')

def padLeft (width : Nat) (text : String) : String :=
  String.ofList (text.toList.leftpad width ' ')

-- Names fill a column of this width.
def nameWidth : Nat := 24

def short (x : Float) : String :=
  Decimal.fixed 4 x

def shortAll (xs : List Float) : String :=
  "[" ++ ", ".intercalate (xs.map short) ++ "]"

-- A link with its parent, its mass and the screw of its joint.
def entryLine (name : String) (entry : Entry Float) : String :=
  let column := padRight nameWidth name
  let parent := padRight nameWidth (entry.parent.getD "-")
  let motion := entry.segment.body.motion.title
  let mass := padLeft 10 (short entry.segment.body.mass)
  let screw := shortAll entry.segment.body.screw.entries
  s!"{column} parent: {parent} {motion} mass: {mass} screw: {screw}"

def chainLine (chain : Chain Float) : String :=
  "chain: " ++ " -> ".intercalate chain.names

-- A link with the place and the orientation of its frame.
def poseLine (name : String) (pose : Pose Float) : String :=
  let column := padRight nameWidth name
  let t := pose.position
  let angles := pose.rotation.toMatrix.rollPitchYaw
  let position := shortAll [t.x, t.y, t.z]
  let orientation := shortAll [angles.x, angles.y, angles.z]
  s!"{column} xyz: {position} rpy: {orientation}"

-- The controls that a terminal could act on are shown by their numbers.
def showControl (c : Char) : List Char :=
  let n := c.toNat
  if [0x07, 0x08, 0x0C, 0x1B, 0x7F].contains n then
    ['\\', 'x'] ++ (Nat.toDigits 16 n).leftpad 2 '0'
  else if 0x80 ≤ n ∧ n ≤ 0x9F then ['\\', 'u', '\x7b'] ++ Nat.toDigits 16 n ++ ['\x7d']
  else [c]

def spell (text : String) : String :=
  String.ofList (text.toList.flatMap showControl)

def logLine (level : Level) (source text : String) : String :=
  level.name ++ " " ++ source ++ ": " ++ spell text

-- Warnings are shown, what is noted link by link is not.
def eventLine? (event : Event) : Option String :=
  if event.level = .warning then some (logLine .warning "urdf_chain::utils" event.text) else none

def readLine (count : Nat) (path : String) : String :=
  logLine .info "urdf_chain" s!"read {count} links from {path}"

def failureLine (failure : Failure) : String :=
  logLine .error "urdf_chain" failure.message

end Linkage.Command
