import Retouch.Selection
import Retouch.Text.Lines

/-!
# Marked text

A sample text says where its selection is by markers written into it.  Reading the
text from the left to the right splits it into pieces, each a character or a
marker.  The characters are the code; each marker stands at the position that the
characters before it reach.

The first `[cursor]` of the text and every `[start]` puts a cursor at its
position; every `[end]` moves the stop of the selection there.
-/

set_option autoImplicit false

namespace Retouch

/-- What a marker asks for. -/
inductive Marker where
  | cursor
  | start
  | stop
deriving DecidableEq

namespace Marker

def text : Marker → Text
  | cursor => "[cursor]".toList
  | start => "[start]".toList
  | stop => "[end]".toList

def all : List Marker := [cursor, start, stop]

/-- The marker with which a text begins. -/
def leading? (text : Text) : Option Marker := all.find? fun marker => marker.text.isPrefixOf text

end Marker

/-- A part of a marked text. -/
inductive Piece where
  | character (character : Char)
  | marker (marker : Marker)
deriving DecidableEq

namespace Piece

/-- The pieces of a text of which the first characters may still belong to a marker
already found. -/
def scan : Nat → Text → List Piece
  | _, [] => []
  | skipped + 1, _ :: rest => scan skipped rest
  | 0, first :: rest =>
    match Marker.leading? (first :: rest) with
    | some found => .marker found :: scan (found.text.length - 1) rest
    | none => .character first :: scan 0 rest

def character? : Piece → Option Char
  | .character value => some value
  | .marker _ => none

end Piece

/-- The pieces of a marked text, in order. -/
def Text.pieces (text : Text) : List Piece := Piece.scan 0 text

/-- A code and the selection in it. -/
structure Sample where
  code : Text
  selection : Selection
deriving DecidableEq

namespace Sample

/-- How far a marked text has been read. -/
structure Reading where
  position : Position
  cursorSeen : Bool
  selection : Selection

/-- Reads one more piece. -/
def Reading.step (reading : Reading) : Piece → Reading
  | .character character => { reading with position := reading.position.after character }
  | .marker .cursor =>
    if reading.cursorSeen then reading
    else { reading with cursorSeen := true, selection := .cursorAt reading.position }
  | .marker .start => { reading with selection := .cursorAt reading.position }
  | .marker .stop =>
    { reading with selection := reading.selection.extendStopTo reading.position }

/-- The code and the selection of a marked text.  Without markers the selection is
a cursor at the given position. -/
def decode (marked : Text) (unmarked : Position) : Sample :=
  let pieces := marked.pieces
  { code := pieces.filterMap Piece.character?
    selection := (pieces.foldl Reading.step ⟨.zero, false, .cursorAt unmarked⟩).selection }

end Sample
end Retouch
