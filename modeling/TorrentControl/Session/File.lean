import TorrentControl.Number.Word
import TorrentControl.Text.Split

/-! # Files of a download

The payload of a download is its files one after the other, cut into chunks of one size. Sizes and
counts are words; sums, differences and products of them saturate. -/

namespace TorrentControl

open Number.Word (clamp)

structure File where
  /-- The components of the path below the directory of the download. -/
  path : List String
  size : Int64
  /-- How many chunks of the file are verified. -/
  completedChunks : Int64
  /-- 0 is off, 1 is normal, 2 is high. -/
  priority : Int64
deriving DecidableEq

namespace File

/-- A file at a path with slashes, of which empty components are left out. -/
def ofPath (path : String) (size : Int64) : File :=
  { path := ((Text.split '/' path.toList).filter (· ≠ [])).map String.ofList
    size
    completedChunks := 0
    priority := 1 }

def pathText (file : File) : String :=
  "/".intercalate file.path

end File

/-! ## File lists -/

structure FileList where
  /-- The directory that holds the files. -/
  directory : String
  /-- Whether the payload is a directory of its own. -/
  isMultiFile : Bool
  chunkSize : Int64
  /-- The greatest size that a file may have, 0 for no limit. -/
  maxFileSize : Int64
  files : List File
deriving DecidableEq

namespace FileList

def standardChunkSize : Int64 := 262144

def empty : FileList :=
  { directory := ""
    isMultiFile := false
    chunkSize := standardChunkSize
    maxFileSize := 0
    files := [] }

/-- The sum of words from the left, saturating at each step. -/
def saturatingSum (words : List Int64) : Int64 :=
  words.foldl (fun sum w => clamp (sum.toInt + w.toInt)) 0

def size (list : FileList) : Int64 :=
  saturatingSum (list.files.map File.size)

/-- The chunk size that is counted with: at least one byte. -/
def chunk (list : FileList) : Int :=
  max list.chunkSize.toInt 1

/-- How many whole chunks lie before an offset. -/
def chunkFloor (list : FileList) (offset : Int) : Int :=
  offset.tdiv list.chunk

/-- How many chunks it takes to cover everything before an offset. -/
def chunkCeil (list : FileList) (offset : Int) : Int :=
  if 0 < offset.tmod list.chunk then list.chunkFloor offset + 1 else list.chunkFloor offset

def sizeInChunks (list : FileList) : Int64 :=
  clamp (list.chunkCeil list.size.toInt)

/-- The verified chunks, never more than there are. -/
def completedChunks (list : FileList) : Int64 :=
  let counted := saturatingSum (list.files.map File.completedChunks)
  if counted.toInt ≤ list.sizeInChunks.toInt then counted else list.sizeInChunks

/-- The bytes in verified chunks, never more than there are. -/
def completedBytes (list : FileList) : Int64 :=
  let covered := clamp (list.completedChunks.toInt * list.chunk)
  if covered.toInt ≤ list.size.toInt then covered else list.size

def leftBytes (list : FileList) : Int64 :=
  clamp (list.size.toInt - list.completedBytes.toInt)

/-- Where the file at an index starts within the payload. -/
def offset (list : FileList) (index : Nat) : Int64 :=
  saturatingSum ((list.files.take index).map File.size)

/-- How many chunks the file at an index touches. -/
def fileChunks (list : FileList) (index : Nat) : Int64 :=
  match list.files[index]? with
  | none => 0
  | some file =>
    if file.size.toInt ≤ 0 then 0
    else
      let start := (list.offset index).toInt
      let stop := (clamp (start + file.size.toInt)).toInt
      clamp (list.chunkCeil stop - list.chunkFloor start)

end FileList

end TorrentControl
