import PolymerAnalysis.Documentation.Basic
import PolymerAnalysis.Peg.Basic
import PolymerAnalysis.Text.Word

namespace PolymerAnalysis.Documentation

open Peg

def isIndent (c : CodePoint) : Bool := c = ' ' || c = '\t'

def isBreak (c : CodePoint) : Bool := c = '\n'

def isInner (c : CodePoint) : Bool := !isBreak c

def isTitle (c : CodePoint) : Bool := c.isWord || c = '-'

def isInType (c : CodePoint) : Bool := c ≠ '\x7d' && isInner c

def indentation : Expr := .pattern [⟨isIndent, .many⟩]

def line : Expr := .choice [.pattern [⟨isInner, .many⟩, ⟨isBreak, .one⟩], .pattern [⟨isInner, .one⟩, ⟨isInner, .many⟩]]

def tagStart : Expr := .pattern [⟨isIndent, .many⟩, ⟨(· = '@'), .one⟩, ⟨(·.isLetter), .one⟩]

def textLine : Expr := .sequence [.absent tagStart, line]

def tagTitle : Expr := .pattern [⟨(·.isLetter), .one⟩, ⟨isTitle, .many⟩]

def tagType : Expr := .sequence [.literal "\x7b", .pattern [⟨isInType, .many⟩], .literal "\x7d"]

def tagBody : Expr := .sequence [.pattern [⟨isInner, .many⟩, ⟨isBreak, .optional⟩], .repeated none textLine]

def tag : Expr :=
  .sequence [indentation, .literal "@", tagTitle, indentation, .repeated (some 1) tagType, indentation, tagBody]

def documentation : Expr := .sequence [.repeated none textLine, .repeated none tag]

end PolymerAnalysis.Documentation
