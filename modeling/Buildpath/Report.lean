import Buildpath.Json
import Buildpath.Module

/-! Printed answers: lines, trees and JSON. A tree has one line a node, depth first,
each level four spaces further in. -/
namespace Buildpath.Report

def lines (items : List String) : String := String.intercalate "\n" items

def indent (depth : Nat) : String := String.ofList (List.replicate (4 * depth) ' ')

mutual
def node (depth : Nat) : TreeOf File → String
  | .node module _ _ children => indent depth ++ module.display ++ "\n" ++ nodes (depth + 1) children

def nodes (depth : Nat) : List (TreeOf File) → String
  | [] => ""
  | tree :: trees => node depth tree ++ nodes depth trees
end

def trees (forest : List (TreeOf File)) : String := Text.trimEnd (nodes 0 forest)

def artifactLine (a : Artifact) : String := a.display ++ " " ++ a.file.text

def moduleJson (m : ModuleId) : Json :=
  .record [("group", .text m.group), ("name", .text m.name), ("version", .text m.version)]

/-- A classifier is written only if there is one. -/
def artifactJson (a : Artifact) : Json :=
  .record ([("module", moduleJson a.module), ("name", .text a.name), ("extension", .text a.extension)] ++
    (a.classifier.map fun c => ("classifier", Json.text c)).toList ++ [("file", .text a.file.text)])

mutual
/-- Children are written only if there are any. -/
def treeJson : Tree → Json
  | .node module configuration artifacts children =>
    .record ([("module", moduleJson module), ("configuration", .text configuration)] ++
      (if children.isEmpty then [] else [("children", .list (treesJson children))]) ++
      [("artifacts", .list (artifacts.map artifactJson))])

def treesJson : List Tree → List Json
  | [] => []
  | tree :: trees => treeJson tree :: treesJson trees
end

end Buildpath.Report
