/-
  New projects: the files with which a project begins.
-/
import ProductSpec.Configuration.Load
import ProductSpec.Project.Basic

namespace ProductSpec.Project

open FileAction

def defaultsTemplate : String :=
"# Project-wide default attributes.
#
# Every product definition starts from these; a product may override a
# default by name, or remove it with \x60null\x60.

conventions: CF-1.8

global_attributes:
  Conventions: CF-1.8
  title: \"<str: derived_from_file>\"
  date_created: \"<str: derived_from_file>\"

group_attributes: \x7b\x7d

variable_attributes:
  long_name: \"<str: derived_from_file>\"
  units: \"<str: derived_from_file>\"
  comment: \"<str: derived_from_file optional>\"
"

def definitionTemplate : String :=
"meta:
  short_name: example
  file_pattern: example_\x7bdate\x7d.nc
  description: Example product

attributes:
  title: Example product

dimensions:
  - name: time
    size: null

variables:
  - meta:
      name: time
      datatype: int32
    dimensions: [time]
    attributes:
      long_name: Time of measurement
      units: \"<str: derived_from_file>\"
      standard_name: time
"

def exampleName : FilePath := definitionsName.join "example.yaml"

/-- The files of a new project. -/
def scaffoldFiles : List FilePath := [defaultsName, exampleName, Configuration.fileName]

/-- Refuses files that are already there. -/
def checkFree : List FilePath → FileAction Unit
  | [] => return ()
  | path :: rest => do
    if ← exists? path then throw (.file (.occupied path.text))
    checkFree rest

/-- Creates a project in a directory that has none of its files, and tells which they are. -/
def scaffold (directory : FilePath) : FileAction (List FilePath) := do
  let files := scaffoldFiles.map directory.join
  checkFree files
  createDirectories (directory.join definitionsName)
  writeText (directory.join defaultsName) defaultsTemplate
  writeText (directory.join exampleName) definitionTemplate
  Configuration.standard.save (directory.join Configuration.fileName)
  return files

end ProductSpec.Project
