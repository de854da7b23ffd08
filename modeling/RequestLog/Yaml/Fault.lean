/-
What is wrong with a document: it may be malformed, a scalar of it may have
the form of a value that does not exist, or its bytes may stand for no text.
-/
import RequestLog.Config.Unreadable

namespace RequestLog.Yaml

open Config (NoValue)

/-- Why a text is no document. -/
inductive Malformed where
  | unprintable
  | badToken
  | keyUnfinished
  | entryMisplaced
  | keyMisplaced
  | valueMisplaced
  | badDirective
  | badAnchor
  | badTag
  | badBlockHeader
  | badEscape
  | quoteUnclosed
  | startMissing
  | contentMissing
  | blockUnclosed
  | flowUnclosed
  | severalDocuments
  | unknownAlias
  | aliasInside
  | repeatedAnchor
  | unknownTag
  | badMerge
  | notScalar
  | notSequence
  | notMapping
  | notKey
  deriving Repr, DecidableEq

def Malformed.message : Malformed → Text
  | .unprintable => "a character is not allowed"
  | .badToken => "a character cannot begin a token"
  | .keyUnfinished => "a key has no value indicator"
  | .entryMisplaced => "a sequence entry is not allowed here"
  | .keyMisplaced => "a mapping key is not allowed here"
  | .valueMisplaced => "a mapping value is not allowed here"
  | .badDirective => "a directive is malformed"
  | .badAnchor => "an anchor is malformed"
  | .badTag => "a tag is malformed"
  | .badBlockHeader => "the header of a block scalar is malformed"
  | .badEscape => "an escape is malformed"
  | .quoteUnclosed => "a quoted scalar is not closed"
  | .startMissing => "a document start is missing"
  | .contentMissing => "a node has no content"
  | .blockUnclosed => "a block collection is not closed"
  | .flowUnclosed => "a flow collection is not closed"
  | .severalDocuments => "more than one document"
  | .unknownAlias => "an alias has no anchor"
  | .aliasInside => "an alias stands inside what it stands for"
  | .repeatedAnchor => "an anchor is given twice"
  | .unknownTag => "a tag is not known"
  | .badMerge => "a merge needs a mapping"
  | .notScalar => "a collection has the tag of a scalar"
  | .notSequence => "what is no sequence has the tag of one"
  | .notMapping => "what is no mapping has the tag of one"
  | .notKey => "a collection cannot be a key"

/-- What is wrong with a document. -/
inductive Fault where
  | malformed (reason : Malformed)
  | noValue (reason : NoValue)
  | undecodable (fault : Utf8.Fault)
  deriving Repr, DecidableEq

/-- A fault in the words of this reader. -/
def Fault.unreadable : Fault → Config.Unreadable
  | .malformed r => .malformed r.message
  | .noValue r => .noValue r
  | .undecodable f => .undecodable f

def malformed {α : Type} (r : Malformed) : Except Fault α := .error (.malformed r)

end RequestLog.Yaml
