import LayerQuery.Compile.Trace
import LayerQuery.Console
import LayerQuery.Draft.Basic
import LayerQuery.Main
import LayerQuery.Proofs.Meaning
import LayerQuery.Proofs.Sources
import LayerQuery.Proofs.Protocol
import LayerQuery.Proofs.Walk
import LayerQuery.Proofs.Places
import LayerQuery.Proofs.Printed
import LayerQuery.Proofs.Rounding
import LayerQuery.Proofs.Grammar
import LayerQuery.Proofs.Lexing
import LayerQuery.Proofs.Reading
import LayerQuery.Proofs.Writing
import LayerQuery.Proofs.Records
import LayerQuery.Proofs.RoundTrip
import LayerQuery.Proofs.Nesting
import LayerQuery.Proofs.Presentation
import LayerQuery.Proofs.Rewriting
import LayerQuery.Proofs.Strays
import LayerQuery.Proofs.Gate
import LayerQuery.Proofs.Scope
import LayerQuery.Proofs.Session
import LayerQuery.Proofs.Spaces
import LayerQuery.Proofs.Entrances
import LayerQuery.Proofs.Issuing
import LayerQuery.Proofs.Listing
import LayerQuery.Proofs.Matching
import LayerQuery.Proofs.Trimming
import LayerQuery.Proofs.TestIds
import LayerQuery.Proofs.Integers
import LayerQuery.Proofs.Display
import LayerQuery.Proofs.TypedIntegers
import LayerQuery.Proofs.Exactness
import LayerQuery.Proofs.SourceNumbers
import LayerQuery.Proofs.TypedNumbers
import LayerQuery.Proofs.Outcome
import LayerQuery.Proofs.Question
import LayerQuery.Proofs.Constants
import LayerQuery.Proofs.Escapes
import LayerQuery.Proofs.Answers
import LayerQuery.Proofs.Coherence
import LayerQuery.Proofs.Reordering
import LayerQuery.Proofs.Indentation
import LayerQuery.Proofs.Unfinished
import LayerQuery.Proofs.Nulls
import LayerQuery.Proofs.Laying
import LayerQuery.Proofs.Search
import LayerQuery.Proofs.LabelTexts
