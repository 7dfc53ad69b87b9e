/-! # The frame of a generated header: banner, includes and namespaces -/
namespace VpdHeaders.Cpp

def banner : String := "// WARNING: Generated header. Do not edit!"

def preamble (ownIncludes systemIncludes : List String) : List String :=
  [banner, "", "#pragma once", ""] ++ ownIncludes.map (fun file => "#include \"" ++ file ++ "\"") ++
    [""] ++ systemIncludes.map (fun file => "#include <" ++ file ++ ">") ++ [""]

def openScope (scope : List String) : List String :=
  scope.flatMap fun segment => ["namespace " ++ segment, "\x7b"]

def closeScope (scope : List String) : List String :=
  scope.reverse.map fun segment => "\x7d // namespace " ++ segment

end VpdHeaders.Cpp
