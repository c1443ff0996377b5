import EndpointTrace.Route.Extraction
import EndpointTrace.Timing.Pool

/-!
# Discovering endpoints

A corpus lists its source files and answers for each with a document and symbols, in
its own time.  Discovery looks at the files side by side; one that cannot be opened or
understood has no endpoints and does not disturb the others.
-/

namespace EndpointTrace

structure Corpus where
  files : Call (List FilePath)
  document : FilePath → Call Document
  symbols : FilePath → Call (List Symbol)

namespace Discovery

structure Options where
  rules : AnnotationRules
  windowLines : Nat
  concurrency : Nat

abbrev Findings := Pool.Outcome FilePath (List Endpoint)

def inFile (options : Options) (guard : Guard) (corpus : Corpus) (file : FilePath)
    (moment : Moment) : Except Failure (List Endpoint) × Moment :=
  match guard.run "open_document" (corpus.document file) moment with
  | (.error failure, moment) => (.error failure, moment)
  | (.ok document, moment) =>
      match guard.run "document_symbols" (corpus.symbols file) moment with
      | (.error failure, moment) => (.error failure, moment)
      | (.ok symbols, moment) =>
          (.ok (Extraction.endpoints options.rules options.windowLines file document
            symbols), moment)

/-- The work on one file.  A cancellation from outside is the business of the pool. -/
def job (options : Options) (timeout : Nat) (corpus : Corpus) (file : FilePath) :
    Job (List Endpoint) :=
  fun moment =>
    match inFile options ⟨timeout, none⟩ corpus file moment with
    | (.ok endpoints, moment) => (endpoints, moment)
    | (.error _, moment) => ([], moment)

def run (options : Options) (guard : Guard) (corpus : Corpus) (moment : Moment) :
    Findings :=
  match guard.run "list_files" corpus.files moment with
  | (.error _, moment) => ⟨[], moment⟩
  | (.ok files, moment) =>
      Pool.run options.concurrency guard.cancelAt (job options guard.timeout corpus) files
        moment

/-- The endpoints of all files, in the order in which the files were settled. -/
def endpoints (findings : Findings) : List Endpoint :=
  findings.values.flatten

end Discovery
end EndpointTrace
