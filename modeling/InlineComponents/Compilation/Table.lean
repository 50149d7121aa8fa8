import InlineComponents.Compilation.Basic

/-!
# Compilers that answer from a table

A table gives for each file what compiling it gives, whatever the source. It can give an answer
for preprocessing too; without one, sources stay as they are.
-/

namespace InlineComponents

/-- The answers of a compiler by file name, and those of preprocessing if the table says so. -/
structure CompilerTable where
  modules : List (String × Except CompileError CompiledModule)
  preprocessing : Option (Except CompileError Preprocessed) := none

namespace CompilerTable

/-- The answer for a file; a file that is not in the table does not compile. -/
def answer (table : CompilerTable) (filename : String) : Except CompileError CompiledModule :=
  (table.modules.lookup filename).getD
    (.error { message := "nothing scripted for " ++ filename })

/-- The compiler that answers from a table. -/
def compiler (table : CompilerTable) : ComponentCompiler where
  compile _ options := table.answer options.filename.toString
  preprocess source _ _ := table.preprocessing.getD (.ok { code := source })

end CompilerTable

end InlineComponents
