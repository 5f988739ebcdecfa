import CollectionTypes.Collection.Declarations
import CollectionTypes.TypeScript.SourceFile

/-!
# The generated document

The document of a list of collections imports the driver's types, declares the types of every
collection that has fields, maps collections to their types in an interface, and exports all type
names.
-/

namespace CollectionTypes

open TypeScript

/-- Where the document goes and how its mapping interface is called. -/
structure OutputSettings where
  directory : Text
  file : Text
  mappingInterface : Text
deriving DecidableEq, Repr

namespace OutputSettings

def standard : OutputSettings where
  directory := "generated"
  file := "fauna-types.ts"
  mappingInterface := "CollectionsTypeMapping"

end OutputSettings

structure Document where
  driverImport : Import
  sets : List DeclarationSet
  mapping : Interface
  exported : Export
deriving DecidableEq, Repr

namespace Document

def headerLine : Text := "Generated by faunats. Do not edit by hand."

def mappingDoc : Text := "Read, create, replace and update types of every collection."

def ofCollections (collections : List Collection) (mappingInterface : Text) : Document :=
  let sets := declarations collections
  { driverImport := { source := Driver.moduleName, names := Driver.types, typeOnly := true }
    sets
    mapping :=
      { name := mappingInterface, doc := some mappingDoc, fields := mappingFields sets }
    exported := { names := exportNames sets, typeOnly := true } }

def sourceFile (document : Document) : SourceFile :=
  ((((SourceFile.empty.addHeader headerLine).addImport document.driverImport).addAll
    (document.sets.map DeclarationSet.fragments)).add document.mapping.fragments).addExport
      document.exported

def render (document : Document) : Text := document.sourceFile.render Indent.standard

/-- The names of the collections that the document declares types for. -/
def generated (document : Document) : List Text := document.sets.map (·.names.main)

end Document

/-- The content of the generated file. -/
def generatedText (collections : List Collection) (output : OutputSettings) : Text :=
  (Document.ofCollections collections output.mappingInterface).render

end CollectionTypes
