import BrainfuckFront.Brackets
import BrainfuckFront.Command
import BrainfuckFront.CommandLine.Directory
import BrainfuckFront.CommandLine.Invocation
import BrainfuckFront.CommandLine.Options
import BrainfuckFront.CommandLine.Run
import BrainfuckFront.Diagnostic
import BrainfuckFront.Expectation
import BrainfuckFront.Failure
import BrainfuckFront.Fault
import BrainfuckFront.FiniteMap
import BrainfuckFront.Instruction
import BrainfuckFront.Jumps
import BrainfuckFront.Kind
import BrainfuckFront.Listing
import BrainfuckFront.Log
import BrainfuckFront.Main
import BrainfuckFront.Program
import BrainfuckFront.Program.Trace
import BrainfuckFront.RunLength
import BrainfuckFront.Sink
import BrainfuckFront.Source
import BrainfuckFront.Text.Painted
import BrainfuckFront.Text.Printable
import BrainfuckFront.Text.Quoted
import BrainfuckFront.Text.Utf8
import BrainfuckFront.Proofs.Words
import BrainfuckFront.Proofs.Level
import BrainfuckFront.Proofs.Nesting
import BrainfuckFront.Proofs.Runs
import BrainfuckFront.Proofs.Searches
import BrainfuckFront.Proofs.Resolution
import BrainfuckFront.Proofs.Writes
import BrainfuckFront.Proofs.Encoding
import BrainfuckFront.Proofs.Loops
import BrainfuckFront.Proofs.Partners
import BrainfuckFront.Proofs.Language
import BrainfuckFront.Proofs.Failures
import BrainfuckFront.Proofs.Filtering
import BrainfuckFront.Proofs.Matching
import BrainfuckFront.Proofs.LoopRanges
import BrainfuckFront.Proofs.Concatenation
import BrainfuckFront.Proofs.Outcomes
import BrainfuckFront.Proofs.Places
import BrainfuckFront.Proofs.Stops
import BrainfuckFront.Proofs.Mismatches
import BrainfuckFront.Proofs.EmptyLoops
import BrainfuckFront.Proofs.Continuation
import BrainfuckFront.Proofs.Pointing
import BrainfuckFront.Proofs.Noninterference
import BrainfuckFront.Proofs.Decodability
import BrainfuckFront.Proofs.Listings
import BrainfuckFront.Proofs.Painting
import BrainfuckFront.Proofs.Tallies
import BrainfuckFront.Proofs.Balance
import BrainfuckFront.Proofs.Settings
import BrainfuckFront.Proofs.CheckWord
import BrainfuckFront.Proofs.Recording
import BrainfuckFront.Proofs.Exactness
import BrainfuckFront.Proofs.Maps
import BrainfuckFront.Proofs.MapComparison
import BrainfuckFront.Proofs.InPlace
import BrainfuckFront.Proofs.Invocations
