import EndpointTrace.Codebase
import EndpointTrace.Files.Listing
import EndpointTrace.Java.Declared
import EndpointTrace.Java.Parser
import EndpointTrace.Source.Document

/-!
# Sources from disk

A source reader reads each file once: whatever happens to a file later, it answers from
the text that it read first.  A file that cannot be read leaves no trace, and neither does
one that is too large.
-/

namespace EndpointTrace

structure SourceReader where
  root : FilePath
  maxFileSize : Nat
  /-- The texts that were read, the latest first. -/
  texts : List (FilePath × List Char)

namespace SourceReader

def new (root : FilePath) (maxFileSize : Nat) : SourceReader :=
  ⟨root, maxFileSize, []⟩

/-- The text of a file that was read before, under any spelling of its path. -/
def known? (reader : SourceReader) (file : FilePath) : Option (List Char) :=
  (reader.texts.find? fun entry => entry.1.same file).map Prod.snd

def load (disk : Disk) (maxFileSize : Nat) (file : FilePath) : Except Failure (List Char) :=
  match disk.bytesAt file with
  | .error problem => .error (.file problem)
  | .ok bytes =>
      if maxFileSize < bytes.length then
        .error (.oversizedFile file.text)
      else
        match Text.Utf8.decode? bytes with
        | some text => .ok text
        | none => .error (.file .invalidUtf8)

def source (disk : Disk) (reader : SourceReader) (file : FilePath) :
    Except Failure (List Char) × SourceReader :=
  match reader.known? file with
  | some text => (.ok text, reader)
  | none =>
      match load disk reader.maxFileSize file with
      | .ok text => (.ok text, { reader with texts := (file, text) :: reader.texts })
      | .error failure => (.error failure, reader)

def document (disk : Disk) (reader : SourceReader) (file : FilePath) :
    Except Failure Document × SourceReader :=
  let (text, reader) := reader.source disk file
  (text.map Document.ofChars, reader)

def symbols (disk : Disk) (reader : SourceReader) (file : FilePath) :
    Except Failure (List Symbol) × SourceReader :=
  let (text, reader) := reader.source disk file
  (text.map fun text => Java.symbols (Java.parse text), reader)

def list (disk : Disk) (reader : SourceReader) (glob : String) :
    Except Failure (List FilePath) :=
  disk.list reader.root glob

def codebase (disk : Disk) (reader : SourceReader) (glob : String) : Codebase where
  root := reader.root
  corpus :=
    { files := .immediate (reader.list disk glob)
      document := fun file => .immediate (reader.document disk file).1
      symbols := fun file => .immediate (reader.symbols disk file).1 }
  text := fun file => .immediate (reader.source disk file).1
  callables := fun file text =>
    .immediate (.ok (CallIndex.empty.addTree file (Java.parse text)))
  oracle := CallIndex.oracle

def readAll (disk : Disk) (reader : SourceReader) (files : List FilePath) : SourceReader :=
  files.foldl (fun reader file => (reader.source disk file).2) reader

def index (disk : Disk) (reader : SourceReader) (glob : String) (guard : Guard)
    (moment : Moment) : Except Failure CallIndex × SourceReader :=
  match ((reader.codebase disk glob).index guard moment).1, reader.list disk glob with
  | .ok index, .ok files => (.ok index, reader.readAll disk files)
  | .ok index, .error _ => (.ok index, reader)
  | .error failure, _ => (.error failure, reader)

end SourceReader

end EndpointTrace
