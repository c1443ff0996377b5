import EndpointTrace.CallGraph.Index
import EndpointTrace.Route.Discovery

/-!
# Code bases

What a trace is made from: a corpus of source files, the callables in each of them, and
an oracle on the index of all callables.  Everything is asked for in calls that take
time.  A file that cannot be read or understood is missing from the index and does not
disturb the others.
-/

namespace EndpointTrace

structure Codebase where
  /-- Where the files are, for the person at the terminal. -/
  root : FilePath
  corpus : Corpus
  text : FilePath → Call (List Char)
  callables : FilePath → List Char → Call CallIndex
  oracle : CallIndex → Oracle Unit

namespace Codebase

def endpoints (codebase : Codebase) (options : Discovery.Options) (guard : Guard)
    (moment : Moment) : List Endpoint × Moment :=
  let findings := Discovery.run options guard codebase.corpus moment
  (Endpoint.sort (Discovery.endpoints findings), findings.moment)

def indexing : String := "call graph indexing"

def indexFile (codebase : Codebase) (guard : Guard) (file : FilePath) (moment : Moment) :
    Except Failure CallIndex × Moment :=
  match guard.run "open_document" (codebase.text file) moment with
  | (.error failure, moment) => (.error failure, moment)
  | (.ok text, moment) => guard.run "index_source" (codebase.callables file text) moment

/-- What an index grows to with the callables of further files, one file after the
other.  A cancellation ends the indexing. -/
def indexFiles (codebase : Codebase) (guard : Guard) (index : CallIndex) :
    List FilePath → Moment → Except Failure CallIndex × Moment
  | [], moment => (.ok index, moment)
  | file :: rest, moment =>
      if moment.cancelled then
        (.error (.cancelled indexing), moment)
      else
        match codebase.indexFile guard file moment with
        | (.ok part, moment) => codebase.indexFiles guard (index.absorb part) rest moment
        | (.error failure, moment) =>
            if failure.isCancelled then (.error failure, moment)
            else codebase.indexFiles guard index rest moment

def index (codebase : Codebase) (guard : Guard) (moment : Moment) :
    Except Failure CallIndex × Moment :=
  match guard.run "list_files" codebase.corpus.files moment with
  | (.error failure, moment) => (.error failure, moment)
  | (.ok files, moment) => codebase.indexFiles guard .empty files moment

end Codebase

end EndpointTrace
